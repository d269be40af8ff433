import Mathlib.Data.List.Nodup
import Parsing.Proofs.Grammar.Building

/-!
# The life of a grammar

A `Draft` is a grammar under construction, with the rules of all grammars. Each step of building it
declares a rule or binds one; a step that fails leaves the draft as it is. What has come of a draft
is a matter of the steps alone (`Drafted.records`): its rules have the names that were declared, in
the order of their first declarations, and each rule has the parser that it was bound to first.

Afterwards the registry goes on changing (`Registry.Later`), as other grammars are built and
dropped. A rule that has its parser keeps it until it is dropped itself (`Later.binding_of_bound`).
-/

namespace Parsing

variable {π : Type → Type} {ρ : Type} {reg reg' : Registry π ρ}

/-! ## What rules stand for in a changing registry -/

namespace Registry

/-- What a rule stands for is told by its slot alone. -/
theorem binding_congr {r : RuleId} (h : reg'.slots[r.number]? = reg.slots[r.number]?) :
    reg'.binding r = reg.binding r := by
  rw [binding, h, binding]

/-- A rule that is declared has a slot. -/
theorem Declared.lt_length {packrat : Bool} {r : RuleId} (h : reg.Declared packrat r) :
    r.number < reg.slots.length := by
  obtain ⟨slot, hslot, -⟩ := h
  exact (List.getElem?_eq_some_iff.mp hslot).1

/-- A rule that has a parser is declared. -/
theorem Declared.of_binding {packrat : Bool} {build : BuildId} {body : Parser π ρ ρ} {r : RuleId}
    (h : reg.binding r = .bound packrat build body) : reg.Declared packrat r := by
  unfold binding at h
  split at h
  · cases h
  · rename_i slot hslot
    rcases slot with ⟨name, packrat', _ | ⟨build', body'⟩, _ | _⟩ <;> cases h
    exact ⟨_, hslot, rfl⟩

/-- A further rule changes nothing for those declared before it. -/
theorem Declared.binding_append {packrat : Bool} {r : RuleId} (h : reg.Declared packrat r)
    (slot : RuleSlot π ρ) : (⟨reg.slots ++ [slot]⟩ : Registry π ρ).binding r = reg.binding r :=
  binding_congr (List.getElem?_append_left h.lt_length)

/-- A change to one rule changes nothing for the others. -/
theorem binding_modify_of_ne {r r' : RuleId} (h : r' ≠ r) (f : RuleSlot π ρ → RuleSlot π ρ) :
    (reg.modify r f).binding r' = reg.binding r' :=
  binding_congr <| List.getElem?_modify_ne f reg.slots fun hnumber =>
    h (congrArg RuleId.mk hnumber.symm)

/-- Binding gives a rule its parser, if it had none, and leaves the other rules alone. -/
theorem binding_of_bind {r : Rule} {build : BuildId} {body : Parser π ρ ρ}
    (h : reg.bind r build body = .ok reg') : reg.binding r.id = .unbound ∧
      (∀ packrat, reg.Declared packrat r.id → reg'.binding r.id = .bound packrat build body) ∧
      ∀ r', r' ≠ r.id → reg'.binding r' = reg.binding r' := by
  unfold bind at h
  split at h
  · rename_i hunbound
    cases h
    refine ⟨hunbound, ?_, fun r' hr' => binding_modify_of_ne hr' _⟩
    rintro packrat ⟨slot, hslot, rfl⟩
    rw [binding, hslot] at hunbound
    rw [binding, modify, List.getElem?_modify, hslot]
    rcases slot with ⟨name, packrat, _ | ⟨build', body'⟩, _ | _⟩
    · simp
    · cases hunbound
    · cases hunbound
    · cases hunbound
  · cases h
  · cases h

/-- Dropping rules leaves all others as they are. -/
theorem binding_drop (reg : Registry π ρ) (rules : List Rule) (r : RuleId) :
    (reg.drop rules).binding r = if r ∈ rules.map Rule.id then .dropped else reg.binding r := by
  unfold drop
  induction rules generalizing reg with
  | nil => rfl
  | cons r' rules ih =>
    rw [List.foldl_cons, ih, List.map_cons]
    by_cases hr : r = r'.id
    · subst hr
      rw [if_pos List.mem_cons_self, ite_eq_left_iff]
      intro _
      rw [binding, modify, List.getElem?_modify]
      cases reg.slots[r'.id.number]? with
      | none => rfl
      | some slot => simp
    · simp only [binding_modify_of_ne hr, List.mem_cons, hr, false_or]

/-- How the registry may change while some rules are kept. -/
inductive Later (kept : List RuleId) (reg : Registry π ρ) : Registry π ρ → Prop where
  | refl : Later kept reg reg
  | declare {reg₁ reg₂ : Registry π ρ} {g g' : Grammar} {name : String} {r : Rule}
    (h : Later kept reg reg₁) (hrun : g.declare name reg₁ = .ok (r, g', reg₂)) : Later kept reg reg₂
  | bind {reg₁ reg₂ : Registry π ρ} {r : Rule} {build : BuildId} {body : Parser π ρ ρ}
    (h : Later kept reg reg₁) (hrun : reg₁.bind r build body = .ok reg₂) : Later kept reg reg₂
  | drop {reg₁ : Registry π ρ} {rules : List Rule} (h : Later kept reg reg₁)
    (hrules : ∀ r ∈ rules, r.id ∉ kept) : Later kept reg (reg₁.drop rules)

/-- A rule that was declared stays declared. -/
theorem Later.declared {kept : List RuleId} (h : Later kept reg reg') {packrat : Bool} {r : RuleId}
    (hr : reg.Declared packrat r) : reg'.Declared packrat r := by
  induction h with
  | refl => exact hr
  | declare _ hrun ih =>
    obtain ⟨-, -, rfl⟩ := Grammar.slots_of_declare hrun
    exact ih.append _
  | bind _ hrun ih => exact ih.bind hrun
  | drop _ _ ih => exact ih.drop _

/-- A rule keeps its parser until it is dropped. -/
theorem Later.binding_of_bound {kept : List RuleId} (h : Later kept reg reg') {r : RuleId}
    {packrat : Bool} {build : BuildId} {body : Parser π ρ ρ}
    (hr : reg.binding r = .bound packrat build body) :
    reg'.binding r = .bound packrat build body ∨ (reg'.binding r = .dropped ∧ r ∉ kept) := by
  induction h with
  | refl => exact .inl hr
  | declare h hrun ih =>
    obtain ⟨-, -, rfl⟩ := Grammar.slots_of_declare hrun
    rwa [(h.declared (.of_binding hr)).binding_append]
  | @bind _ _ r' _ _ _ hrun ih =>
    obtain ⟨hunbound, -, hother⟩ := binding_of_bind hrun
    have hne : r ≠ r'.id := by
      rintro rfl
      rw [hunbound] at ih
      rcases ih with ih | ⟨ih, -⟩ <;> cases ih
    rwa [hother r hne]
  | drop _ hrules ih =>
    rw [binding_drop]
    split
    · rename_i hmem
      obtain ⟨r', hr', rfl⟩ := List.mem_map.mp hmem
      exact .inr ⟨rfl, hrules r' hr'⟩
    · exact ih

/-- Rules that are kept go on having their parsers. -/
theorem Later.exists_binding_of_mem {kept : List RuleId} (h : Later kept reg reg')
    {packrat : Bool}
    (hbound : ∀ r ∈ kept, ∃ build body, reg.binding r = .bound packrat build body) :
    ∀ r ∈ kept, ∃ build body, reg'.binding r = .bound packrat build body := by
  intro r hr
  obtain ⟨build, body, hr'⟩ := hbound r hr
  refine ⟨build, body, (h.binding_of_bound hr').resolve_right ?_⟩
  exact fun hdropped => hdropped.2 hr

end Registry

/-- The rules of a grammar are told from each other by their identities. -/
theorem Grammar.Built.nodup_ruleIds {packrat : Bool} {g : Grammar} (h : Built packrat g reg) :
    g.ruleIds.Nodup := by
  induction h with
  | start => exact List.nodup_nil
  | declare h hrun ih =>
    obtain ⟨hid, rfl, -⟩ := slots_of_declare hrun
    rw [ruleIds, List.map_append, List.map_singleton, ← List.concat_eq_append]
    refine ih.concat fun hmem => ?_
    obtain ⟨r', hr', heq⟩ := List.mem_map.mp hmem
    exact Nat.ne_of_lt (h.declared hr').lt_length ((congrArg RuleId.number heq).trans hid)
  | bind _ _ ih | other _ _ ih | drop _ _ ih => exact ih

/-! ## Drafts -/

/-- A grammar under construction, with the rules of all grammars. -/
structure Draft (π : Type → Type) (ρ : Type) where
  grammar : Grammar
  registry : Registry π ρ

/-- A step of building a grammar. -/
inductive Draft.Step (π : Type → Type) (ρ : Type) where
  | declare (name : String)
  | bind (r : Rule) (build : BuildId) (body : Parser π ρ ρ)

namespace Draft

/-- What a step leads to, if it does not fail. -/
def perform (d : Draft π ρ) : Step π ρ → Except BuildError (Draft π ρ)
  | .declare name => (d.grammar.declare name d.registry).map fun (_, g, reg) => ⟨g, reg⟩
  | .bind r build body => (d.registry.bind r build body).map fun reg => ⟨d.grammar, reg⟩

/-- The draft after a step; one that fails changes nothing. -/
def next (d : Draft π ρ) (step : Step π ρ) : Draft π ρ :=
  match d.perform step with
  | .ok d => d
  | .error _ => d

/-- The parser of a start rule, if all rules are bound. -/
def finish (d : Draft π ρ) (start : Rule) : Except BuildError GrammarParser :=
  d.grammar.finish start d.registry

/-! ### What the steps say -/

/-- The name that a step declares. -/
def Step.name? : Step π ρ → Option String
  | .declare name => some name
  | .bind _ _ _ => none

/-- The parser that a step gives to the rule of a name. -/
def Step.body? (name : String) : Step π ρ → Option (BuildId × Parser π ρ ρ)
  | .declare _ => none
  | .bind r build body => if r.name = name then some (build, body) else none

/-- The names that were declared, in the order of their first declarations. -/
def declaredNames (steps : List (Step π ρ)) : List String :=
  (steps.filterMap Step.name?).eraseDups

/-- The parser that the rule of a name was bound to first. -/
def firstBody? (steps : List (Step π ρ)) (name : String) : Option (BuildId × Parser π ρ ρ) :=
  steps.findSome? (Step.body? name)

/-- The declared names whose rules were never bound. -/
def unboundNames (steps : List (Step π ρ)) : List String :=
  (declaredNames steps).filter fun name => (firstBody? steps name).isNone

/-- The drafts that declaring rules and binding the rules that were declared lead to. -/
inductive Drafted (packrat : Bool) : List (Step π ρ) → Draft π ρ → Prop where
  | start (reg : Registry π ρ) : Drafted packrat [] ⟨{ packrat }, reg⟩
  | declare {steps : List (Step π ρ)} {d : Draft π ρ} (h : Drafted packrat steps d)
    (name : String) :
    Drafted packrat (steps ++ [.declare name]) (d.next (.declare name))
  | bind {steps : List (Step π ρ)} {d : Draft π ρ} (h : Drafted packrat steps d) {r : Rule}
    (hr : r ∈ d.grammar.rules) (build : BuildId) (body : Parser π ρ ρ) :
    Drafted packrat (steps ++ [.bind r build body]) (d.next (.bind r build body))

end Draft

/-- What a rule stands for that may have a parser. -/
def Binding.ofBody? (packrat : Bool) : Option (BuildId × Parser π ρ ρ) → Binding π ρ
  | none => .unbound
  | some (build, body) => .bound packrat build body

namespace Draft

/-- What has come of a draft by some steps. -/
structure Records (packrat : Bool) (steps : List (Step π ρ)) (d : Draft π ρ) : Prop where
  packrat_eq : d.grammar.packrat = packrat
  names_eq : d.grammar.rules.map Rule.name = declaredNames steps
  names_nodup : (d.grammar.rules.map Rule.name).Nodup
  ids_nodup : (d.grammar.rules.map Rule.id).Nodup
  declared {r : Rule} : r ∈ d.grammar.rules → d.registry.Declared packrat r.id
  binding_eq {r : Rule} : r ∈ d.grammar.rules →
    d.registry.binding r.id = .ofBody? packrat (firstBody? steps r.name)
  mem_of_bind {r : Rule} {build : BuildId} {body : Parser π ρ ρ} :
    .bind r build body ∈ steps → r ∈ d.grammar.rules

variable {packrat : Bool} {steps : List (Step π ρ)} {d : Draft π ρ}

/-- A name is declared once, however often it is tried. -/
theorem declaredNames_declare (steps : List (Step π ρ)) (name : String) :
    declaredNames (steps ++ [.declare name]) =
      if name ∈ declaredNames steps then declaredNames steps
      else declaredNames steps ++ [name] := by
  have hlast : [Step.declare (π := π) (ρ := ρ) name].filterMap Step.name? = [name] := rfl
  rw [declaredNames, declaredNames, List.filterMap_append, hlast, List.eraseDups_append,
    List.removeAll]
  generalize steps.filterMap Step.name? = names
  by_cases hname : name ∈ names
  · simp [hname]
  · simp [hname, List.eraseDups_cons]

/-- The names that were declared are those of the steps that declare. -/
theorem mem_declaredNames {name : String} : name ∈ declaredNames steps ↔ .declare name ∈ steps := by
  rw [declaredNames, List.mem_eraseDups, List.mem_filterMap]
  constructor
  · rintro ⟨name' | _, hstep, hname⟩
    · cases hname
      exact hstep
    · cases hname
  · exact fun hstep => ⟨_, hstep, rfl⟩

/-- Binding declares no name. -/
theorem declaredNames_bind (steps : List (Step π ρ)) (r : Rule) (build : BuildId)
    (body : Parser π ρ ρ) :
    declaredNames (steps ++ [.bind r build body]) = declaredNames steps := by
  have hlast : [Step.bind r build body].filterMap Step.name? = [] := rfl
  rw [declaredNames, List.filterMap_append, hlast, List.append_nil, declaredNames]

/-- A declaration gives no parser. -/
theorem firstBody?_declare (steps : List (Step π ρ)) (name name' : String) :
    firstBody? (steps ++ [.declare name]) name' = firstBody? steps name' := by
  rw [firstBody?, List.findSome?_append, firstBody?]
  exact Option.or_none

/-- The first parser of a name stays, and a later one counts only if there was none. -/
theorem firstBody?_bind (steps : List (Step π ρ)) (r : Rule) (build : BuildId)
    (body : Parser π ρ ρ) (name : String) : firstBody? (steps ++ [.bind r build body]) name =
      (firstBody? steps name).or (if r.name = name then some (build, body) else none) := by
  rw [firstBody?, List.findSome?_append, firstBody?]
  simp [Step.body?]

/-- Before the first step nothing has come of it. -/
theorem Records.start (reg : Registry π ρ) : Records packrat [] ⟨{ packrat }, reg⟩ where
  packrat_eq := rfl
  names_eq := rfl
  names_nodup := List.nodup_nil
  ids_nodup := List.nodup_nil
  declared hr := absurd hr List.not_mem_nil
  binding_eq hr := absurd hr List.not_mem_nil
  mem_of_bind h := absurd h List.not_mem_nil

/-- The names of the rules of a draft are different. -/
theorem Records.eq_of_name_eq (h : Records packrat steps d) {r r' : Rule}
    (hr : r ∈ d.grammar.rules) (hr' : r' ∈ d.grammar.rules) (hname : r.name = r'.name) : r = r' :=
  List.inj_on_of_nodup_map h.names_nodup hr hr' hname

/-- The identities of the rules of a draft are different. -/
theorem Records.eq_of_id_eq (h : Records packrat steps d) {r r' : Rule}
    (hr : r ∈ d.grammar.rules) (hr' : r' ∈ d.grammar.rules) (hid : r.id = r'.id) : r = r' :=
  List.inj_on_of_nodup_map h.ids_nodup hr hr' hid

/-- A name has a first parser if and only if some step has bound it. -/
theorem isSome_firstBody?_iff {name : String} : (firstBody? steps name).isSome ↔
    ∃ r build body, .bind r build body ∈ steps ∧ r.name = name := by
  rw [firstBody?, List.findSome?_isSome_iff]
  constructor
  · rintro ⟨_ | ⟨r, build, body⟩, hstep, hbody⟩
    · cases hbody
    · rw [Step.body?, Option.isSome_ite] at hbody
      exact ⟨r, build, body, hstep, hbody⟩
  · rintro ⟨r, build, body, hstep, rfl⟩
    exact ⟨_, hstep, by rw [Step.body?, if_pos rfl]; rfl⟩

/-- A rule has its parser once it was bound. -/
theorem Records.isSome_firstBody?_iff_bind (h : Records packrat steps d) {r : Rule}
    (hr : r ∈ d.grammar.rules) :
    (firstBody? steps r.name).isSome ↔ ∃ build body, .bind r build body ∈ steps := by
  rw [isSome_firstBody?_iff]
  constructor
  · rintro ⟨r', build, body, hstep, hname⟩
    cases h.eq_of_name_eq (h.mem_of_bind hstep) hr hname
    exact ⟨build, body, hstep⟩
  · rintro ⟨build, body, hstep⟩
    exact ⟨r, build, body, hstep, rfl⟩

/-- Declaring fails where the name is declared already, and adds a rule where it is not. -/
theorem Records.perform_declare (h : Records packrat steps d) (name : String) :
    d.perform (.declare name) =
      if name ∈ declaredNames steps then .error (.duplicateRule name)
      else .ok ⟨{ d.grammar with rules := d.grammar.rules ++ [⟨⟨d.registry.slots.length⟩, name⟩] },
        ⟨d.registry.slots ++ [{ name := name, packrat := packrat }]⟩⟩ := by
  have hany : (d.grammar.rules.any fun r => r.name = name) = true ↔ name ∈ declaredNames steps := by
    rw [← h.names_eq]
    simp
  simp only [perform, Grammar.declare, hany, h.packrat_eq]
  split <;> rfl

/-- Declaring fails exactly if the name was declared before. -/
theorem Records.perform_declare_eq_error_iff (h : Records packrat steps d) (name : String)
    (e : BuildError) : d.perform (.declare name) = .error e ↔
      e = .duplicateRule name ∧ .declare name ∈ steps := by
  rw [h.perform_declare, ← mem_declaredNames]
  split <;> simp [*, eq_comm]

/-- After a declaration the draft is what its steps say. -/
theorem Records.declare (h : Records packrat steps d) (name : String) :
    Records packrat (steps ++ [.declare name]) (d.next (.declare name)) := by
  have hperform := h.perform_declare name
  have hnames := declaredNames_declare steps name
  have hbind {r : Rule} {build : BuildId} {body : Parser π ρ ρ}
      (hmem : .bind r build body ∈ steps ++ [.declare name]) : .bind r build body ∈ steps := by
    simpa using hmem
  split at hperform
  · -- the name is declared already, so nothing has changed
    rw [if_pos ‹_›] at hnames
    rw [next, hperform]
    refine { h with names_eq := ?_, binding_eq := ?_, mem_of_bind := ?_ }
    · rw [hnames, h.names_eq]
    · intro r hr
      rw [firstBody?_declare, h.binding_eq hr]
    · exact fun hmem => h.mem_of_bind (hbind hmem)
  · -- the new rule stands behind all that the registry knows of
    rename_i hname
    rw [if_neg hname] at hnames
    rw [next, hperform]
    have hnew : (⟨d.registry.slots ++ [{ name := name, packrat := packrat }]⟩ : Registry π ρ).slots[
        d.registry.slots.length]? = some { name := name, packrat := packrat } := by
      simp
    constructor
    case packrat_eq => exact h.packrat_eq
    case names_eq => rw [hnames, ← h.names_eq, List.map_append, List.map_singleton]
    case names_nodup =>
      rw [List.map_append, List.map_singleton, ← List.concat_eq_append]
      exact h.names_nodup.concat (h.names_eq ▸ hname)
    case ids_nodup =>
      rw [List.map_append, List.map_singleton, ← List.concat_eq_append]
      refine h.ids_nodup.concat fun hmem => ?_
      obtain ⟨r, hr, hid⟩ := List.mem_map.mp hmem
      exact Nat.ne_of_lt (h.declared hr).lt_length (congrArg RuleId.number hid)
    case declared =>
      intro r hr
      rcases List.mem_append.mp hr with hr | hr
      · exact (h.declared hr).append _
      · cases List.mem_singleton.mp hr
        exact ⟨_, hnew, rfl⟩
    case binding_eq =>
      intro r hr
      rw [firstBody?_declare]
      rcases List.mem_append.mp hr with hr | hr
      · rw [(h.declared hr).binding_append, h.binding_eq hr]
      · cases List.mem_singleton.mp hr
        -- rules are bound after they are declared only
        have hnone : firstBody? steps name = none := by
          refine Option.not_isSome_iff_eq_none.mp fun hsome => hname ?_
          obtain ⟨r', build, body, hstep, rfl⟩ := isSome_firstBody?_iff.mp hsome
          rw [← h.names_eq]
          exact List.mem_map_of_mem (h.mem_of_bind hstep)
        rw [Registry.binding, hnew, hnone]
        rfl
    case mem_of_bind => exact fun hmem => List.mem_append_left _ (h.mem_of_bind (hbind hmem))

/-- Binding a rule of the grammar fails where it was bound before. -/
theorem Records.perform_bind (h : Records packrat steps d) {r : Rule} (hr : r ∈ d.grammar.rules)
    (build : BuildId) (body : Parser π ρ ρ) :
    d.perform (.bind r build body) =
      if (firstBody? steps r.name).isSome then .error (.alreadyBound r.name)
      else .ok ⟨d.grammar,
        d.registry.modify r.id fun slot => { slot with body := some (build, body) }⟩ := by
  rw [perform, Registry.bind, h.binding_eq hr]
  rcases firstBody? steps r.name with _ | ⟨build', body'⟩ <;> rfl

/-- Binding fails exactly if the rule was bound before. -/
theorem Records.perform_bind_eq_error_iff (h : Records packrat steps d) {r : Rule}
    (hr : r ∈ d.grammar.rules) (build : BuildId) (body : Parser π ρ ρ) (e : BuildError) :
    d.perform (.bind r build body) = .error e ↔
      e = .alreadyBound r.name ∧ ∃ build body, .bind r build body ∈ steps := by
  rw [h.perform_bind hr, ← h.isSome_firstBody?_iff_bind hr]
  split <;> simp [*, eq_comm]

/-- After a binding the draft is what its steps say. -/
theorem Records.bind (h : Records packrat steps d) {r : Rule} (hr : r ∈ d.grammar.rules)
    (build : BuildId) (body : Parser π ρ ρ) :
    Records packrat (steps ++ [.bind r build body]) (d.next (.bind r build body)) := by
  have hperform := h.perform_bind hr build body
  have hnames := declaredNames_bind steps r build body
  have hfirst {name : String} (hname : r.name ≠ name) :
      firstBody? (steps ++ [.bind r build body]) name = firstBody? steps name := by
    rw [firstBody?_bind, if_neg hname, Option.or_none]
  have hmem {r' : Rule} {build' : BuildId} {body' : Parser π ρ ρ}
      (hstep : .bind r' build' body' ∈ steps ++ [.bind r build body]) : r' ∈ d.grammar.rules := by
    rcases List.mem_append.mp hstep with hstep | hstep
    · exact h.mem_of_bind hstep
    · cases List.mem_singleton.mp hstep
      exact hr
  split at hperform
  · -- the first parser stays
    rename_i hbound
    rw [next, hperform]
    refine { h with names_eq := ?_, binding_eq := fun {r'} hr' => ?_, mem_of_bind := hmem }
    · rw [hnames, h.names_eq]
    · rw [firstBody?_bind, h.binding_eq hr']
      split
      · rename_i hname
        rw [← hname, Option.or_of_isSome hbound]
      · rw [Option.or_none]
  · -- there was none: the rule of the name gets it, and all others stay as they are
    rename_i hunbound
    have hnone : firstBody? steps r.name = none := Option.not_isSome_iff_eq_none.mp hunbound
    have hbinding := h.binding_eq hr
    rw [hnone] at hbinding
    have hrun : d.registry.bind r build body = .ok (d.registry.modify r.id
        fun slot => { slot with body := some (build, body) }) := by
      rw [Registry.bind, hbinding]
      rfl
    obtain ⟨-, hself, hother⟩ := Registry.binding_of_bind hrun
    rw [next, hperform]
    refine { h with names_eq := ?_, declared := ?_, binding_eq := fun {r'} hr' => ?_,
                    mem_of_bind := hmem }
    · rw [hnames, h.names_eq]
    · exact fun hr' => (h.declared hr').bind hrun
    · by_cases hname : r.name = r'.name
      · cases h.eq_of_name_eq hr hr' hname
        rw [hself packrat (h.declared hr), firstBody?_bind, hnone, if_pos rfl]
        rfl
      · have hid : r'.id ≠ r.id := by
          intro hid
          exact hname (congrArg Rule.name (h.eq_of_id_eq hr hr' hid.symm))
        rw [hother r'.id hid, hfirst hname, h.binding_eq hr']

/-- A draft is what its steps say, whichever they were. -/
theorem Drafted.records (h : Drafted packrat steps d) : Records packrat steps d := by
  induction h with
  | start reg => exact .start reg
  | declare _ name ih => exact ih.declare name
  | bind _ hr build body ih => exact ih.bind hr build body

/-- A rule has its parser exactly if its name was bound. -/
theorem Records.isBound_eq (h : Records packrat steps d) {r : Rule} (hr : r ∈ d.grammar.rules) :
    d.registry.isBound r = (firstBody? steps r.name).isSome := by
  rw [Registry.isBound, h.binding_eq hr]
  rcases firstBody? steps r.name with _ | ⟨build, body⟩ <;> rfl

/-- The rules that have no parser have the names that were never bound, in the same order. -/
theorem Records.unbound_eq (h : Records packrat steps d) :
    (d.grammar.rules.filter fun r => !d.registry.isBound r).map Rule.name = unboundNames steps := by
  rw [unboundNames, ← h.names_eq, List.filter_map]
  refine congrArg (List.map Rule.name) (List.filter_congr fun r hr => ?_)
  rw [h.isBound_eq hr, Option.not_isSome]
  rfl

/-- A grammar is finished exactly if no name is unbound, and else the error lists the unbound
names. -/
theorem Records.finish_eq (h : Records packrat steps d) (start : Rule) :
    d.finish start = if unboundNames steps = [] then .ok { start, rules := d.grammar.rules }
      else .error (.unbound (unboundNames steps)) := by
  rw [finish, Grammar.finish, ← h.unbound_eq]
  rcases d.grammar.rules.filter fun r => !d.registry.isBound r with _ | ⟨r, rules⟩ <;> rfl

/-- A grammar that is finished has no unbound names. -/
theorem Records.of_finish (h : Records packrat steps d) {start : Rule} {parser : GrammarParser}
    (hfinish : d.finish start = .ok parser) : unboundNames steps = [] ∧ parser.start = start := by
  rw [h.finish_eq] at hfinish
  split at hfinish
  · cases hfinish
    exact ⟨‹_›, rfl⟩
  · cases hfinish

/-- Once a draft can be finished, all of its rules have their parsers. -/
theorem Records.exists_binding (h : Records packrat steps d) (hfinish : unboundNames steps = [])
    {r : Rule} (hr : r ∈ d.grammar.rules) :
    ∃ build body, d.registry.binding r.id = .bound packrat build body := by
  rw [h.binding_eq hr]
  rcases hbody : firstBody? steps r.name with _ | ⟨build, body⟩
  · have hmem : r.name ∈ unboundNames steps := by
      refine List.mem_filter.mpr ⟨?_, by rw [hbody]; rfl⟩
      rw [← h.names_eq]
      exact List.mem_map_of_mem hr
    rw [hfinish] at hmem
    cases hmem
  · exact ⟨build, body, rfl⟩

/-- After a draft can be finished, its rules are bound as long as they are kept, and never without a
parser. -/
theorem Records.binding_of_later (h : Records packrat steps d)
    (hfinish : unboundNames steps = []) {kept : List RuleId} (hlater : d.registry.Later kept reg)
    {id : RuleId} (hid : id ∈ d.grammar.ruleIds) :
    reg.binding id ≠ .unbound ∧ (id ∈ kept → reg.binding id ≠ .dropped) := by
  obtain ⟨r, hr, rfl⟩ := List.mem_map.mp hid
  obtain ⟨build, body, hbound⟩ := h.exists_binding hfinish hr
  rcases hlater.binding_of_bound hbound with hbinding | ⟨hbinding, hkept⟩
  · rw [hbinding]
    exact ⟨nofun, fun _ => nofun⟩
  · rw [hbinding]
    exact ⟨nofun, fun hmem => absurd hmem hkept⟩

end Draft

end Parsing
