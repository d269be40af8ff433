import Mathlib.Data.List.Induction
import Mathlib.Data.List.Sort
import Parsing.Operator.Table
import Parsing.Parser.Text

/-!
# The levels of an operator table

Operators are added to groups one by one. What one step keeps (`IsGrouping.add`) gives what all of
them come to (`IsGrouping.addAll`): the groups go from tight to loose, they have the levels of the
table, and each has the operators of its level in their order. There is one list of groups like
that, so it does not matter how operators of different levels stand in the table
(`IsGrouping.unique`).

A consistent operator is of the arity that the layer of its level asks for, so no layer drops any of
its operators: the parser that is built has a layer for each group with just the operators of that
group (`Layered`). It depends on the operators of each level, in their order, and on nothing else
(`build_eq_of_buckets`).
-/

namespace Parsing

/-- Different associativities have different ranks. -/
theorem Associativity.rank_injective {a b : Associativity} (h : a.rank = b.rank) : a = b := by
  cases a <;> cases b <;> simp_all [rank]

/-! ## The order of levels -/

namespace Level

variable {a b c : Level}

/-- A level is tighter by its priority, or by the rank of its associativity in the same priority. -/
theorem tighter_iff : a.tighter b = true ↔ b.priority < a.priority ∨
    (a.priority = b.priority ∧ a.associativity.rank < b.associativity.rank) := by
  simp [tighter]

/-- No level is tighter than itself. -/
theorem not_tighter_self (a : Level) : ¬a.tighter a = true := by
  simp [tighter_iff]

/-- What is tighter than something tighter is tighter. -/
theorem tighter_trans (hab : a.tighter b = true) (hbc : b.tighter c = true) :
    a.tighter c = true := by
  rw [tighter_iff] at *
  omega

/-- Of two levels one at most is tighter. -/
theorem tighter_asymm (hab : a.tighter b = true) : ¬b.tighter a = true := by
  rw [tighter_iff] at *
  omega

/-- Of two levels one is tighter, unless they are the same. -/
theorem eq_of_not_tighter (hab : ¬a.tighter b = true) (hba : ¬b.tighter a = true) : a = b := by
  rw [tighter_iff] at hab hba
  have hpriority : a.priority = b.priority := by omega
  have hrank : a.associativity.rank = b.associativity.rank := by omega
  cases a
  cases b
  rw [mk.injEq]
  exact ⟨hpriority, Associativity.rank_injective hrank⟩

/-- There is one list of some levels in order. -/
theorem eq_of_pairwise {ls ls' : List Level} (hls : ls.Pairwise fun a b => a.tighter b = true)
    (hls' : ls'.Pairwise fun a b => a.tighter b = true) (hmem : ∀ l, l ∈ ls ↔ l ∈ ls') :
    ls = ls' := by
  have : Std.Irrefl fun a b : Level => a.tighter b = true := ⟨not_tighter_self⟩
  have : Std.Antisymm fun a b : Level => a.tighter b = true :=
    ⟨fun a b hab hba => absurd hba (tighter_asymm hab)⟩
  exact hls.eq_of_mem_iff hls' hmem

/-- Levels that go from tight to loose are different. -/
theorem nodup_of_pairwise {ls : List Level} (hls : ls.Pairwise fun a b => a.tighter b = true) :
    ls.Nodup :=
  hls.imp fun {a b} hab heq => by
    subst heq
    exact not_tighter_self a hab

end Level

/-- The operators at a level, in the order of the table. -/
def OperatorTable.operatorsAt {π : Type → Type} {ρ O : Type} (entries : List (OperatorEntry π ρ O))
    (l : Level) : List (Operator π ρ O) :=
  (entries.filter fun e => e.level = l).map (·.operator)

/-! ## Groups -/

namespace OperatorGroup

open OperatorTable (operatorsAt)

variable {π : Type → Type} {ρ O : Type} {e : OperatorEntry π ρ O} {g : OperatorGroup π ρ O}
  {groups groups' : List (OperatorGroup π ρ O)}
  {before entries entries' : List (OperatorEntry π ρ O)}
  {l : Level}

/-- One more operator comes last at its own level, and nowhere else. -/
theorem operatorsAt_concat (before : List (OperatorEntry π ρ O)) (e : OperatorEntry π ρ O)
    (l : Level) : operatorsAt (before ++ [e]) l =
      operatorsAt before l ++ if e.level = l then [e.operator] else [] := by
  rw [operatorsAt, List.filter_append, List.map_append]
  by_cases h : e.level = l <;> simp [operatorsAt, h]

/-- At a level that no operator has, there are none. -/
theorem operatorsAt_eq_nil (h : ¬∃ e ∈ entries, e.level = l) : operatorsAt entries l = [] := by
  rw [operatorsAt, List.map_eq_nil_iff, List.filter_eq_nil_iff]
  exact fun e he hl => h ⟨e, he, of_decide_eq_true hl⟩

/-- The levels of groups, from which one is missing at most. -/
theorem mem_map_level_add :
    l ∈ (add e groups).map level ↔ l = e.level ∨ l ∈ groups.map level := by
  induction groups with
  | nil => simp [add]
  | cons g groups ih =>
    rw [add]
    split
    · simp
    · rename_i heg
      split
      · rw [List.map_cons, List.mem_cons, ih, List.map_cons, List.mem_cons, or_left_comm]
      · rename_i hge
        simp [Level.eq_of_not_tighter heg hge]

/-- Adding an operator keeps the groups in order, since its own stands behind the tighter ones. -/
theorem pairwise_add (h : (groups.map level).Pairwise fun a b => a.tighter b = true) :
    ((add e groups).map level).Pairwise fun a b => a.tighter b = true := by
  induction groups with
  | nil => simp [add]
  | cons g groups ih =>
    obtain ⟨hg, hgroups⟩ := List.pairwise_cons.mp h
    rw [add]
    split
    · rename_i heg
      refine List.pairwise_cons.mpr ⟨fun l hl => ?_, h⟩
      rcases List.mem_cons.mp hl with rfl | hl
      · exact heg
      · exact Level.tighter_trans heg (hg l hl)
    · split
      · rename_i hge
        refine List.pairwise_cons.mpr ⟨fun l hl => ?_, ih hgroups⟩
        rcases mem_map_level_add.mp hl with rfl | hl
        · exact hge
        · exact hg l hl
      · exact h

/-- A group that an operator was added to, and one that it was not added to. -/
theorem of_mem_add (h : (groups.map level).Pairwise fun a b => a.tighter b = true)
    (hg : g ∈ add e groups) : (g ∈ groups ∧ g.level ≠ e.level) ∨
      (g.level = e.level ∧ ∃ g' ∈ groups, g'.level = e.level ∧
        g.operators = g'.operators ++ [e.operator]) ∨
      (g = ⟨e.level, [e.operator]⟩ ∧ e.level ∉ groups.map level) := by
  induction groups with
  | nil => exact .inr (.inr ⟨List.mem_singleton.mp hg, List.not_mem_nil⟩)
  | cons g₀ groups ih =>
    obtain ⟨hg₀, hgroups⟩ := List.pairwise_cons.mp h
    rw [add] at hg
    split at hg
    · rename_i heg
      -- all groups are looser than the new one
      have hnew : e.level ∉ (g₀ :: groups).map level := by
        intro hmem
        rcases List.mem_cons.mp hmem with heq | hmem
        · exact Level.not_tighter_self _ (heq ▸ heg)
        · exact Level.tighter_asymm heg (hg₀ _ hmem)
      rcases List.mem_cons.mp hg with rfl | hg
      · exact .inr (.inr ⟨rfl, hnew⟩)
      · exact .inl ⟨hg, fun heq => hnew (heq ▸ List.mem_map_of_mem hg)⟩
    · rename_i heg
      split at hg
      · rename_i hge
        have hne : g₀.level ≠ e.level := fun heq => Level.not_tighter_self _ (heq ▸ hge)
        rcases List.mem_cons.mp hg with rfl | hg
        · exact .inl ⟨List.mem_cons_self, hne⟩
        · rcases ih hgroups hg with ⟨hmem, hlevel⟩ | ⟨hlevel, g', hg', hadded⟩ | ⟨heq, hmem⟩
          · exact .inl ⟨List.mem_cons_of_mem g₀ hmem, hlevel⟩
          · exact .inr (.inl ⟨hlevel, g', List.mem_cons_of_mem g₀ hg', hadded⟩)
          · exact .inr (.inr ⟨heq, List.not_mem_cons_of_ne_of_not_mem hne.symm hmem⟩)
      · rename_i hge
        have heq : g₀.level = e.level := (Level.eq_of_not_tighter heg hge).symm
        rcases List.mem_cons.mp hg with rfl | hg
        · exact .inr (.inl ⟨heq, g₀, List.mem_cons_self, heq, rfl⟩)
        · refine .inl ⟨List.mem_cons_of_mem g₀ hg, fun hlevel => ?_⟩
          have htighter := hg₀ _ (List.mem_map_of_mem hg)
          exact Level.not_tighter_self _ (heq.trans hlevel.symm ▸ htighter)

/-- Adding an operator drops none. -/
theorem perm_flatMap_add (e : OperatorEntry π ρ O) (groups : List (OperatorGroup π ρ O)) :
    ((add e groups).flatMap operators).Perm (groups.flatMap operators ++ [e.operator]) := by
  induction groups with
  | nil => exact .refl _
  | cons g groups ih =>
    rw [add]
    split
    · exact (List.perm_append_singleton _ _).symm
    · split
      · rw [List.flatMap_cons, List.flatMap_cons, List.append_assoc]
        exact ih.append_left _
      · rw [List.flatMap_cons, List.flatMap_cons, List.append_assoc, List.append_assoc]
        exact (List.perm_append_comm).append_left _

/-- Whether groups are those of some operators: they go from tight to loose and have the levels of
the operators, and in each are the operators of its level, in their order. -/
structure IsGrouping (groups : List (OperatorGroup π ρ O)) (entries : List (OperatorEntry π ρ O)) :
    Prop where
  pairwise : (groups.map level).Pairwise fun a b => a.tighter b = true
  mem_levels : ∀ l, l ∈ groups.map level ↔ ∃ e ∈ entries, e.level = l
  operators_eq : ∀ g ∈ groups, g.operators = operatorsAt entries g.level
  perm : (groups.flatMap operators).Perm (entries.map (·.operator))

namespace IsGrouping

/-- No operators are in no groups. -/
theorem nil : IsGrouping (π := π) (ρ := ρ) (O := O) [] [] where
  pairwise := .nil
  mem_levels l := by simp
  operators_eq g hg := absurd hg List.not_mem_nil
  perm := .nil

/-- One step: the groups with one more operator. -/
theorem add (h : IsGrouping groups before) (e : OperatorEntry π ρ O) :
    IsGrouping (add e groups) (before ++ [e]) where
  pairwise := pairwise_add h.pairwise
  mem_levels l := by
    rw [mem_map_level_add, h.mem_levels]
    simp [or_and_right, exists_or, or_comm, eq_comm]
  operators_eq g hg := by
    rw [operatorsAt_concat]
    rcases of_mem_add h.pairwise hg with ⟨hmem, hne⟩ | ⟨heq, g', hg', heq', hadded⟩ | ⟨rfl, hnew⟩
    · rw [if_neg hne.symm, List.append_nil, h.operators_eq g hmem]
    · rw [if_pos heq.symm, hadded, h.operators_eq g' hg', heq', heq]
    · rw [h.mem_levels] at hnew
      rw [if_pos rfl, operatorsAt_eq_nil hnew]
      rfl
  perm := by
    rw [List.map_append]
    exact (perm_flatMap_add e groups).trans (h.perm.append_right _)

/-- All steps: consistent operators are added to what they belong to. -/
theorem addAll (h : IsGrouping groups before) (hentries : ∀ e ∈ entries, e.isConsistent = true) :
    ∃ groups', addAll entries groups = .ok groups' ∧ IsGrouping groups' (before ++ entries) := by
  induction entries generalizing groups before with
  | nil => exact ⟨groups, rfl, by rwa [List.append_nil]⟩
  | cons e entries ih =>
    obtain ⟨he, hentries⟩ := List.forall_mem_cons.mp hentries
    obtain ⟨groups', hadd, hgroups'⟩ := ih (h.add e) hentries
    rw [List.append_assoc] at hgroups'
    exact ⟨groups', by rw [OperatorGroup.addAll, if_pos he, hadd], hgroups'⟩

/-- What is in a group is known by its level. -/
theorem eq_map (h : IsGrouping groups entries) :
    groups = (groups.map level).map fun l => ⟨l, operatorsAt entries l⟩ := by
  rw [List.map_map]
  refine (List.map_id groups).symm.trans (List.map_congr_left fun g hg => ?_)
  cases g
  exact congrArg (OperatorGroup.mk _) (h.operators_eq _ hg)

/-- Groups are determined by the operators of each level. -/
theorem unique (h : IsGrouping groups entries) (h' : IsGrouping groups' entries')
    (hlevels : ∀ l, (∃ e ∈ entries, e.level = l) ↔ ∃ e ∈ entries', e.level = l)
    (hoperators : operatorsAt entries = operatorsAt entries') : groups = groups' := by
  have hmap : groups.map level = groups'.map level :=
    Level.eq_of_pairwise h.pairwise h'.pairwise fun l => by
      rw [h.mem_levels, h'.mem_levels, hlevels]
  rw [h.eq_map, h'.eq_map, hmap, hoperators]

end IsGrouping

/-- The first operator that is not consistent is reported, whatever was added before. -/
theorem addAll_eq_error (he : e.isConsistent = false)
    (hbefore : ∀ e' ∈ before, e'.isConsistent = true) (after : List (OperatorEntry π ρ O)) :
    addAll (before ++ e :: after) groups =
      .error (.combinerMismatch e.description e.operator.arity e.level.associativity) := by
  induction before generalizing groups with
  | nil => rw [List.nil_append, addAll, if_neg (by simp [he])]
  | cons e' before ih =>
    obtain ⟨he', hbefore⟩ := List.forall_mem_cons.mp hbefore
    rw [List.cons_append, addAll, if_pos he', ih hbefore]

end OperatorGroup

namespace OperatorTable

variable {π : Type → Type} {ρ O : Type} {operand p : Parser π ρ O}
  {entries : List (OperatorEntry π ρ O)} {groups : List (OperatorGroup π ρ O)}

/-! ## Layers -/

/-- Whether a parser has a layer around the operand for each of some groups, which chooses among the
operators of that group, all of them and no others. -/
inductive Layered (operand : Parser π ρ O) :
    List (OperatorGroup π ρ O) → Parser π ρ O → Prop where
  | operand : Layered operand [] operand
  | left {groups : List (OperatorGroup π ρ O)} {p : Parser π ρ O} (priority : Int)
    (ps : List (Parser π ρ (O → O → O))) (h : Layered operand groups p) :
    Layered operand (groups ++ [⟨⟨priority, .left⟩, ps.map .binary⟩])
      (leftLayer p (.choiceOf ps))
  | right {groups : List (OperatorGroup π ρ O)} {p : Parser π ρ O} (priority : Int)
    (ps : List (Parser π ρ (O → O → O))) (h : Layered operand groups p) :
    Layered operand (groups ++ [⟨⟨priority, .right⟩, ps.map .binary⟩])
      (rightLayer p (.choiceOf ps))
  | single {groups : List (OperatorGroup π ρ O)} {p : Parser π ρ O} (priority : Int)
    (ps : List (Parser π ρ (O → O → O))) (h : Layered operand groups p) :
    Layered operand (groups ++ [⟨⟨priority, .none⟩, ps.map .binary⟩])
      (singleLayer p (.choiceOf ps))
  | before {groups : List (OperatorGroup π ρ O)} {p : Parser π ρ O} (priority : Int)
    (ps : List (Parser π ρ (O → O))) (h : Layered operand groups p) :
    Layered operand (groups ++ [⟨⟨priority, .before⟩, ps.map .unary⟩])
      (beforeLayer p (.choiceOf ps))
  | after {groups : List (OperatorGroup π ρ O)} {p : Parser π ρ O} (priority : Int)
    (ps : List (Parser π ρ (O → O))) (h : Layered operand groups p) :
    Layered operand (groups ++ [⟨⟨priority, .after⟩, ps.map .unary⟩])
      (afterLayer p (.choiceOf ps))

/-- Binary operators are as many when they are looked at as binary. -/
theorem map_filterMap_binary? {operators : List (Operator π ρ O)}
    (h : ∀ o ∈ operators, o.arity = .binary) :
    (operators.filterMap Operator.binary?).map .binary = operators := by
  rw [List.map_filterMap]
  refine (List.filterMap_congr fun o ho => ?_).trans List.filterMap_some
  have harity := h o ho
  cases o with
  | binary p => rfl
  | unary p => cases harity

/-- Unary operators are as many when they are looked at as unary. -/
theorem map_filterMap_unary? {operators : List (Operator π ρ O)}
    (h : ∀ o ∈ operators, o.arity = .unary) :
    (operators.filterMap Operator.unary?).map .unary = operators := by
  rw [List.map_filterMap]
  refine (List.filterMap_congr fun o ho => ?_).trans List.filterMap_some
  have harity := h o ho
  cases o with
  | binary p => cases harity
  | unary p => rfl

/-- A layer drops none of its operators if they have the arity of its level. -/
theorem Layered.layer (h : Layered operand groups p) {g : OperatorGroup π ρ O}
    (hg : ∀ o ∈ g.operators, o.arity = g.level.associativity.arity) :
    Layered operand (groups ++ [g]) (layer g.level.associativity p g.operators) := by
  rcases g with ⟨⟨priority, associativity⟩, operators⟩
  cases associativity with
  | left =>
    have hlayer := h.left priority (operators.filterMap Operator.binary?)
    rwa [map_filterMap_binary? hg] at hlayer
  | right =>
    have hlayer := h.right priority (operators.filterMap Operator.binary?)
    rwa [map_filterMap_binary? hg] at hlayer
  | none =>
    have hlayer := h.single priority (operators.filterMap Operator.binary?)
    rwa [map_filterMap_binary? hg] at hlayer
  | before =>
    have hlayer := h.before priority (operators.filterMap Operator.unary?)
    rwa [map_filterMap_unary? hg] at hlayer
  | after =>
    have hlayer := h.after priority (operators.filterMap Operator.unary?)
    rwa [map_filterMap_unary? hg] at hlayer

/-- Building one group after another leads to a parser with a layer for each. -/
theorem layered_foldl
    (h : ∀ g ∈ groups, ∀ o ∈ g.operators, o.arity = g.level.associativity.arity) :
    Layered operand groups (groups.foldl
      (fun operand g => OperatorTable.layer g.level.associativity operand g.operators)
      operand) := by
  induction groups using List.reverseRecOn with
  | nil => exact .operand
  | append_singleton groups g ih =>
    obtain ⟨hgroups, hg⟩ := List.forall_mem_append.mp h
    rw [List.foldl_append]
    exact (ih hgroups).layer (hg g List.mem_cons_self)

/-- Consistent operators have the arity of their level. -/
theorem arity_of_mem_operatorsAt (h : ∀ e ∈ entries, e.isConsistent = true) {l : Level}
    {o : Operator π ρ O} (ho : o ∈ operatorsAt entries l) : o.arity = l.associativity.arity := by
  obtain ⟨e, he, rfl⟩ := List.mem_map.mp ho
  obtain ⟨hmem, hlevel⟩ := List.mem_filter.mp he
  have hconsistent := h e hmem
  simp only [OperatorEntry.isConsistent, decide_eq_true_eq] at hconsistent hlevel
  rw [hconsistent, hlevel]

/-! ## Building -/

/-- A table of consistent operators is built to a layer for each of its groups. -/
theorem exists_build_eq_ok (operand : Parser π ρ O) (h : ∀ e ∈ entries, e.isConsistent = true) :
    ∃ groups, OperatorGroup.IsGrouping groups entries ∧
      build ⟨operand, entries⟩ = .ok (groups.foldl
        (fun operand g => layer g.level.associativity operand g.operators) operand) := by
  obtain ⟨groups, hadd, hgroups⟩ := OperatorGroup.IsGrouping.nil.addAll h
  refine ⟨groups, hgroups, ?_⟩
  cases entries with
  | nil =>
    cases hadd
    rfl
  | cons e entries =>
    simp only [build, List.isEmpty_cons, Bool.false_eq_true, if_false, hadd]
    rfl

/-- A table is built to a layer for each of its levels in order, with the operators there. -/
theorem build_eq_of_levels (operand : Parser π ρ O) (h : ∀ e ∈ entries, e.isConsistent = true)
    {ls : List Level} (hls : ls.Pairwise fun a b => a.tighter b = true)
    (hmem : ∀ l, l ∈ ls ↔ ∃ e ∈ entries, e.level = l) :
    build ⟨operand, entries⟩ = .ok (ls.foldl
      (fun operand l => layer l.associativity operand (operatorsAt entries l)) operand) := by
  obtain ⟨groups, hgroups, hbuild⟩ := exists_build_eq_ok operand h
  have hlevels : groups.map OperatorGroup.level = ls :=
    Level.eq_of_pairwise hgroups.pairwise hls fun l => by rw [hgroups.mem_levels, hmem]
  rw [hbuild, hgroups.eq_map, hlevels, List.foldl_map]

/-- What a table is built to depends on the operators of each level and on their order there: two
tables that agree in that are built to the same parser. It has a layer for each level of the table,
from tight to loose, with the operators of that level in their order, so that each operator is in
one layer. A table with an operator that is not consistent is not built, and the error tells the
first such operator. -/
theorem build_eq_of_buckets (operand : Parser π ρ O) :
    (∀ entries entries' : List (OperatorEntry π ρ O), entries.Perm entries' →
      (∀ l, (entries.filter fun e => e.level = l) = entries'.filter fun e => e.level = l) →
      (∀ e ∈ entries, e.isConsistent = true) →
        ∃ p, build ⟨operand, entries⟩ = .ok p ∧ build ⟨operand, entries'⟩ = .ok p) ∧
    (∀ entries : List (OperatorEntry π ρ O), (∀ e ∈ entries, e.isConsistent = true) →
      ∃ p groups, build ⟨operand, entries⟩ = .ok p ∧ Layered operand groups p ∧
        (groups.map OperatorGroup.level).Pairwise (fun a b => a.tighter b = true) ∧
        (∀ l, l ∈ groups.map OperatorGroup.level ↔ ∃ e ∈ entries, e.level = l) ∧
        (∀ g ∈ groups, g.operators =
          (entries.filter fun e => e.level = g.level).map OperatorEntry.operator) ∧
        (groups.flatMap OperatorGroup.operators).Perm (entries.map OperatorEntry.operator)) ∧
    ∀ (before : List (OperatorEntry π ρ O)) (e : OperatorEntry π ρ O) (after),
      e.isConsistent = false → (∀ e' ∈ before, e'.isConsistent = true) →
        build ⟨operand, before ++ e :: after⟩ =
          .error (.combinerMismatch e.description e.operator.arity e.level.associativity) := by
  refine ⟨fun entries entries' hperm horder h => ?_, fun entries h => ?_,
    fun before e after he h => ?_⟩
  · have h' : ∀ e ∈ entries', e.isConsistent = true := fun e he => h e (hperm.mem_iff.mpr he)
    obtain ⟨groups, hgroups, hbuild⟩ := exists_build_eq_ok operand h
    obtain ⟨groups', hgroups', hbuild'⟩ := exists_build_eq_ok operand h'
    have hoperators : operatorsAt entries = operatorsAt entries' :=
      funext fun l => congrArg (List.map _) (horder l)
    -- both tables have the same levels, and so the same groups in the same order
    have heq := hgroups.unique hgroups' (fun l => by simp only [hperm.mem_iff]) hoperators
    exact ⟨_, hbuild, heq ▸ hbuild'⟩
  · obtain ⟨groups, hgroups, hbuild⟩ := exists_build_eq_ok operand h
    refine ⟨_, groups, hbuild, layered_foldl fun g hg o ho => ?_, hgroups.pairwise,
      hgroups.mem_levels, hgroups.operators_eq, hgroups.perm⟩
    exact arity_of_mem_operatorsAt h (hgroups.operators_eq g hg ▸ ho)
  · have hne : (before ++ e :: after).isEmpty = false := by cases before <;> rfl
    simp only [build, hne, OperatorGroup.addAll_eq_error he h after]
    rfl

/-! ### A table of four operators -/

namespace Sums

def add : OperatorEntry TextPrimitive Nat Nat :=
  .ofCombiner (.char '+') 2 .left (.ofBinary (· + ·))

def subtract : OperatorEntry TextPrimitive Nat Nat :=
  .ofCombiner (.char '-') 2 .left (.ofBinary (· - ·))

def multiply : OperatorEntry TextPrimitive Nat Nat :=
  .ofCombiner (.char '*') 4 .left (.ofBinary (· * ·))

/-- Between two operands, though its meaning has one. -/
def broken : OperatorEntry TextPrimitive Nat Nat :=
  .ofCombiner (.char '!') 4 .right (.ofUnary (· + 1))

end Sums

open Sums in
/-- The operator of another level may stand between the two of one level or behind them. -/
theorem build_eq_of_buckets_sums :
    (∃ p, build ⟨.replaced 1 (.char '1'), [add, multiply, subtract]⟩ = .ok p ∧
      build ⟨.replaced 1 (.char '1'), [add, subtract, multiply]⟩ = .ok p) ∧
    (∃ p groups, build ⟨.replaced 1 (.char '1'), [add, multiply, subtract]⟩ = .ok p ∧
      Layered (.replaced 1 (.char '1')) groups p ∧
      (groups.flatMap OperatorGroup.operators).Perm
        [add.operator, multiply.operator, subtract.operator]) ∧
    build ⟨.replaced 1 (.char '1'), [add, broken, multiply]⟩ =
      .error (.combinerMismatch "'!'" .unary .right) := by
  have hlevels (l : Level) : (([add, multiply, subtract].filter fun e => e.level = l) =
      [add, subtract, multiply].filter fun e => e.level = l) := by
    by_cases hadd : l = ⟨2, .left⟩
    · subst hadd
      rfl
    · have hne : ¬(⟨2, .left⟩ : Level) = l := fun h => hadd h.symm
      have hadd' : ¬add.level = l := hne
      have hsubtract : ¬subtract.level = l := hne
      simp only [List.filter_cons, decide_eq_true_eq, hadd', hsubtract, if_false]
  have hconsistent : ∀ e ∈ [add, multiply, subtract], e.isConsistent = true := by
    simp [add, multiply, subtract, OperatorEntry.isConsistent, OperatorEntry.ofCombiner,
      Combiner.ofBinary, Operator.ofCombiner, Operator.arity, Associativity.arity]
  obtain ⟨hsame, hlayers, hmismatch⟩ :=
    build_eq_of_buckets (.replaced 1 (.char '1') : Parser TextPrimitive Nat Nat)
  obtain ⟨p, groups, hbuild, hlayered, -, -, -, hall⟩ := hlayers _ hconsistent
  refine ⟨hsame _ _ ?_ hlevels hconsistent, ⟨p, groups, hbuild, hlayered, hall⟩,
    hmismatch [add] broken [multiply] rfl ?_⟩
  · exact (List.Perm.swap _ _ _).cons add
  · intro e he
    cases List.mem_singleton.mp he
    rfl

end OperatorTable

end Parsing
