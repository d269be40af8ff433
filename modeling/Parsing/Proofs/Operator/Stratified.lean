import Mathlib.Data.List.Induction
import Parsing.Proofs.Operator.Layers
import Parsing.Proofs.Operator.Levels

/-!
# Operator tables read their stratified grammar

Where operands and operators are single tokens, a table has a grammar with a stratum for each level:
what is read at one level are the operands of the next one (`TokenOperator.stratified`). The parser
of the table interprets that grammar (`interprets_levels`), since a token tells to which level its
operator belongs, so that none of them may follow an operand of a tighter level and be part of it.
-/

namespace Parsing

open Readings

/-- How the operators of one priority go, the tightest first. -/
def Associativity.tightestFirst : List Associativity :=
  [.after, .before, .none, .right, .left]

/-- Whether operators of the one level bind before those of the other: those of greater priority do,
and within a priority they go by their associativity. -/
def Level.BindsBefore (a b : Level) : Prop :=
  b.priority < a.priority ∨
    (a.priority = b.priority ∧
      [a.associativity, b.associativity].Sublist Associativity.tightestFirst)

/-- Levels go from tight to loose as their operators bind. -/
theorem Level.tighter_iff_bindsBefore {a b : Level} : a.tighter b = true ↔ a.BindsBefore b := by
  rw [tighter_iff, BindsBefore]
  have hrank : a.associativity.rank < b.associativity.rank ↔
      [a.associativity, b.associativity].Sublist Associativity.tightestFirst := by
    cases a.associativity <;> cases b.associativity <;> decide
  rw [hrank]

variable {π : Type → Type} {T ρ O : Type} [Newline T] [Primitive π]
  [Primitive.Runs π (TokenReader T)] {env : Environment π ρ}

/-- An operator of a table that is a single token, with a meaning of as many operands as its
associativity asks for. -/
structure TokenOperator (env : Environment π ρ) (T O : Type) [Newline T]
    [Primitive.Runs π (TokenReader T)] where
  token : T
  level : Level
  Value : Type
  parser : Parser π ρ Value
  value : Value
  combiner : Combiner Value O
  reads : parser.ReadsTokens env fun t k => t = token ∧ k = value
  isConsistent : (Operator.ofCombiner parser combiner).arity = level.associativity.arity

namespace TokenOperator

/-- The operator in a table. -/
def entry (o : TokenOperator env T O) : OperatorEntry π ρ O :=
  .ofCombiner o.parser o.level.priority o.level.associativity o.combiner

/-- What the operator does between two operands. -/
def infix? (o : TokenOperator env T O) : Option (O → O → O) :=
  match o.combiner with
  | .binary f => some fun left right => f left o.value right
  | .unary _ => none

/-- What the operator does beside an operand. -/
def mark? (o : TokenOperator env T O) : Option (O → O) :=
  match o.combiner with
  | .binary _ => none
  | .unary f => some (f o.value)

section Grammar

variable (operand : T → O → Prop) (ops : List (TokenOperator env T O))

/-- The operators of a level that stand between operands. -/
def infixesAt (l : Level) (t : T) (f : O → O → O) : Prop :=
  ∃ o ∈ ops, o.level = l ∧ o.token = t ∧ o.infix? = some f

/-- The operators of a level that stand beside an operand. -/
def marksAt (l : Level) (t : T) (f : O → O) : Prop :=
  ∃ o ∈ ops, o.level = l ∧ o.token = t ∧ o.mark? = some f

/-- How operands with operators of some levels are read, where the levels go from tight to loose. -/
def stratified (ls : List Level) : Readings T O :=
  ls.foldl (fun E l => Grouped E (infixesAt ops l) (marksAt ops l) l.associativity) (single operand)

/-- The tokens with which an operand of all these levels may begin. -/
def Starts (ls : List Level) (t : T) : Prop :=
  (∃ x, operand t x) ∨
    ∃ o ∈ ops, o.level ∈ ls ∧ o.level.associativity = .before ∧ o.token = t

/-- The tokens that may go on an operand of one of these levels. -/
def Follows (ls : List Level) (t : T) : Prop :=
  ∃ o ∈ ops, o.level ∈ ls ∧ o.level.associativity ≠ .before ∧ o.token = t

end Grammar

variable {operand : T → O → Prop} {ops : List (TokenOperator env T O)} {ls : List Level} {l : Level}

/-- In a table, an operator has its level. -/
theorem level_entry (o : TokenOperator env T O) : o.entry.level = o.level :=
  rfl

/-- An operator of tokens has as many operands as its associativity asks for. -/
theorem isConsistent_entry (o : TokenOperator env T O) : o.entry.isConsistent = true :=
  decide_eq_true o.isConsistent

/-- The loosest level reads operands of all levels before it. -/
theorem stratified_concat : stratified operand ops (ls ++ [l]) =
    Grouped (stratified operand ops ls) (infixesAt ops l) (marksAt ops l) l.associativity := by
  rw [stratified, List.foldl_append]
  rfl

/-! ### The operators of one level -/

/-- At a level of the table are the operators of that level. -/
theorem operatorsAt_map_entry (ops : List (TokenOperator env T O)) (l : Level) :
    OperatorTable.operatorsAt (ops.map entry) l =
      (ops.filter fun o => o.level = l).map fun o => o.entry.operator := by
  rw [OperatorTable.operatorsAt, List.filter_map, List.map_map]
  rfl

/-- An operator is known by its token. -/
theorem eq_of_token_eq (hdistinct : (ops.map token).Nodup) {o o' : TokenOperator env T O}
    (ho : o ∈ ops) (ho' : o' ∈ ops) (h : o.token = o'.token) : o = o' :=
  List.inj_on_of_nodup_map hdistinct ho ho' h

section Level

variable {α : Type} {parser? : Operator π ρ O → Option (Parser π ρ α)}
  {meaning? : TokenOperator env T O → Option α}

/-- The operators of a level that have parsers of some kind are read by a choice among these. -/
theorem readsTokens_operatorsAt (hdistinct : (ops.map token).Nodup)
    (hsome : ∀ o p, parser? o.entry.operator = some p →
      p.ReadsTokens env fun t f => o.token = t ∧ meaning? o = some f)
    (hnone : ∀ o, parser? o.entry.operator = none → meaning? o = none) (l : Level) :
    (Parser.choiceOf ((OperatorTable.operatorsAt (ops.map entry) l).filterMap parser?)).ReadsTokens
      env fun t f => ∃ o ∈ ops, o.level = l ∧ o.token = t ∧ meaning? o = some f := by
  rw [operatorsAt_map_entry, List.filterMap_map]
  refine (Parser.readsTokens_choiceOf (fun o _ p hp => hsome o p hp) ?_ ?_).congr fun t f => ?_
  · rintro o _ hp t f ⟨-, hf⟩
    rw [hnone o hp] at hf
    cases hf
  · refine List.Pairwise.imp ?_ ((List.pairwise_map.mp hdistinct).filter _)
    rintro o o' hne t f g ⟨ht, -⟩ ⟨ht', -⟩
    exact hne (ht.trans ht'.symm)
  · simp only [List.mem_filter, decide_eq_true_eq, and_assoc]

/-- What an operator does by its value is what its token means. -/
theorem readsTokens_map {o : TokenOperator env T O} {g : o.Value → α} {f : α}
    (hf : f = g o.value) :
    (Parser.map g o.parser).ReadsTokens env fun t f' => o.token = t ∧ some f = some f' := by
  refine (o.reads.map g).congr fun t f' => ?_
  constructor
  · rintro ⟨k, ⟨rfl, rfl⟩, rfl⟩
    exact ⟨rfl, congrArg some hf⟩
  · rintro ⟨rfl, hf'⟩
    exact ⟨o.value, ⟨rfl, rfl⟩, (Option.some.inj hf').symm.trans hf⟩

/-- The binary operators of a level take the tokens of its infix operators. -/
theorem readsTokens_infixesAt (hdistinct : (ops.map token).Nodup) (l : Level) :
    (Parser.choiceOf ((OperatorTable.operatorsAt (ops.map entry) l).filterMap
      Operator.binary?)).ReadsTokens env (infixesAt ops l) := by
  refine readsTokens_operatorsAt hdistinct (fun o p hp => ?_) (fun o hp => ?_) l
  · rcases hcombiner : o.combiner with f | f <;>
      simp only [entry, OperatorEntry.ofCombiner, Operator.ofCombiner, hcombiner, Operator.binary?,
        Option.some.injEq, reduceCtorEq] at hp
    subst hp
    simp only [infix?, hcombiner]
    exact readsTokens_map rfl
  · rcases hcombiner : o.combiner with f | f <;>
      simp only [entry, OperatorEntry.ofCombiner, Operator.ofCombiner, hcombiner, Operator.binary?,
        reduceCtorEq] at hp
    simp only [infix?, hcombiner]

/-- The unary operators of a level take the tokens of its marks. -/
theorem readsTokens_marksAt (hdistinct : (ops.map token).Nodup) (l : Level) :
    (Parser.choiceOf ((OperatorTable.operatorsAt (ops.map entry) l).filterMap
      Operator.unary?)).ReadsTokens env (marksAt ops l) := by
  refine readsTokens_operatorsAt hdistinct (fun o p hp => ?_) (fun o hp => ?_) l
  · rcases hcombiner : o.combiner with f | f <;>
      simp only [entry, OperatorEntry.ofCombiner, Operator.ofCombiner, hcombiner, Operator.unary?,
        Option.some.injEq, reduceCtorEq] at hp
    subst hp
    simp only [mark?, hcombiner]
    exact readsTokens_map rfl
  · rcases hcombiner : o.combiner with f | f <;>
      simp only [entry, OperatorEntry.ofCombiner, Operator.ofCombiner, hcombiner, Operator.unary?,
        reduceCtorEq] at hp
    simp only [mark?, hcombiner]

end Level

/-! ### All levels -/

/-- The token of an operator goes on no operand of other levels. -/
theorem not_follows_of_not_mem (hdistinct : (ops.map token).Nodup) (hl : l ∉ ls)
    {o : TokenOperator env T O} (ho : o ∈ ops) (hlevel : o.level = l) :
    ¬Follows ops ls o.token := by
  rintro ⟨o', ho', hmem, -, htoken⟩
  rw [eq_of_token_eq hdistinct ho' ho htoken, hlevel] at hmem
  exact hl hmem

/-- The token of an operator begins no operand of other levels. -/
theorem not_starts_of_not_mem (hdistinct : (ops.map token).Nodup)
    (houtside : ∀ o ∈ ops, ∀ x, ¬operand o.token x) (hl : l ∉ ls) {o : TokenOperator env T O}
    (ho : o ∈ ops) (hlevel : o.level = l) : ¬Starts operand ops ls o.token := by
  rintro (⟨x, hx⟩ | ⟨o', ho', hmem, -, htoken⟩)
  · exact houtside o ho x hx
  · rw [eq_of_token_eq hdistinct ho' ho htoken, hlevel] at hmem
    exact hl hmem

/-- What begins an operand begins one of looser levels. -/
theorem Starts.concat {t : T} (h : Starts operand ops ls t) (l : Level) :
    Starts operand ops (ls ++ [l]) t := by
  rcases h with ht | ⟨o, ho, hmem, hbefore⟩
  · exact Or.inl ht
  · exact Or.inr ⟨o, ho, List.mem_append_left [l] hmem, hbefore⟩

/-- What goes on an operand goes on one of looser levels. -/
theorem Follows.concat {t : T} (h : Follows ops ls t) (l : Level) : Follows ops (ls ++ [l]) t := by
  obtain ⟨o, ho, hmem, hne⟩ := h
  exact ⟨o, ho, List.mem_append_left [l] hmem, hne⟩

/-- The tokens of a level go on its operands, unless they stand in front. -/
theorem follows_concat {α : Type} {meaning? : TokenOperator env T O → Option α} {t : T}
    (hne : l.associativity ≠ .before)
    (h : Follows ops ls t ∨ ∃ f, ∃ o ∈ ops, o.level = l ∧ o.token = t ∧ meaning? o = some f) :
    Follows ops (ls ++ [l]) t := by
  rcases h with h | ⟨f, o, ho, rfl, ht, -⟩
  · exact h.concat l
  · exact ⟨o, ho, List.mem_append_right ls List.mem_cons_self, hne, ht⟩

/-- The parser with a layer for each of some levels interprets operands with the operators of these
levels. -/
theorem interprets_levels {p : Parser π ρ O} (hoperand : p.ReadsTokens env operand)
    (hdistinct : (ops.map token).Nodup) (houtside : ∀ o ∈ ops, ∀ x, ¬operand o.token x)
    (hls : ls.Nodup) :
    (ls.foldl (fun p l => OperatorTable.layer l.associativity p
      (OperatorTable.operatorsAt (ops.map entry) l)) p).Interprets env
        (stratified operand ops ls) (Starts operand ops ls) (Follows ops ls) := by
  -- on the levels from the outermost inwards: the parser of the others is the operand of a layer
  induction ls using List.reverseRecOn with
  | nil => exact hoperand.interprets.mono (fun t ht => Or.inl ht) fun t ht => ht.elim
  | append_singleton ls l ih =>
    obtain ⟨hls, -, hnew⟩ := List.nodup_append.mp hls
    have hl : l ∉ ls := fun h => hnew l h l List.mem_cons_self rfl
    have hinner := ih hls
    have hinfixes := readsTokens_infixesAt hdistinct l
    have hmarks := readsTokens_marksAt hdistinct l
    -- the operators of this level are none of those of the levels inside
    have hinfix : ∀ t f, infixesAt ops l t f → ¬Follows ops ls t := by
      rintro t f ⟨o, ho, hlevel, rfl, -⟩
      exact not_follows_of_not_mem hdistinct hl ho hlevel
    have hmark : ∀ t f, marksAt ops l t f → ¬Follows ops ls t := by
      rintro t f ⟨o, ho, hlevel, rfl, -⟩
      exact not_follows_of_not_mem hdistinct hl ho hlevel
    have hstart : ∀ t f, marksAt ops l t f → ¬Starts operand ops ls t := by
      rintro t f ⟨o, ho, hlevel, rfl, -⟩
      exact not_starts_of_not_mem hdistinct houtside hl ho hlevel
    rw [stratified_concat, List.foldl_append]
    rcases l with ⟨priority, _ | _ | _ | _ | _⟩
    · exact (Parser.interprets_leftLayer hinner hinfixes hinfix).mono
        (fun t ht => ht.concat _) fun t ht => follows_concat (by simp) ht
    · exact (Parser.interprets_rightLayer hinner hinfixes hinfix).mono
        (fun t ht => ht.concat _) fun t ht => follows_concat (by simp) ht
    · exact (Parser.interprets_singleLayer hinner hinfixes hinfix).mono
        (fun t ht => ht.concat _) fun t ht => follows_concat (by simp) ht
    · refine (Parser.interprets_beforeLayer hinner hmarks hstart).mono ?_ fun t ht => ht.concat _
      rintro t (ht | ⟨f, o, ho, hlevel, ht, -⟩)
      · exact ht.concat _
      · refine Or.inr ⟨o, ho, ?_, congrArg Level.associativity hlevel, ht⟩
        rw [hlevel]
        exact List.mem_append_right ls List.mem_cons_self
    · exact (Parser.interprets_afterLayer hinner hmarks hmark).mono
        (fun t ht => ht.concat _) fun t ht => follows_concat (by simp) ht

/-- A table of operators that are single tokens, all different and none of them an operand, is built
to a parser for its stratified grammar. Whatever that grammar gives a value is read with that value,
unless an operator between or behind operands follows; and whatever the parser reads with a value
has that value in the grammar. -/
theorem build_parses_stratified {p : Parser π ρ O} (hoperand : p.ReadsTokens env operand)
    (hdistinct : (ops.map token).Nodup) (houtside : ∀ o ∈ ops, ∀ x, ¬operand o.token x)
    (hls : ls.Pairwise Level.BindsBefore) (hmem : ∀ l, l ∈ ls ↔ ∃ o ∈ ops, o.level = l) :
    ∃ q, OperatorTable.build ⟨p, ops.map entry⟩ = .ok q ∧
      (∀ (c : TokenReader T) w r v, c.rest = w ++ r → stratified operand ops ls w v →
        (∀ t ∈ r.head?, ∀ o ∈ ops, o.token = t → o.level.associativity = .before) →
          ∃ n, ∀ m, n ≤ m → ∀ ctx s, ∃ d : TokenReader T,
            (q.run env m ctx c s).1 = .ok (.success v d) ∧
            d = Cursor.next^[w.length] c ∧ d.rest = r) ∧
      ∀ (c : TokenReader T) m ctx s v (d : TokenReader T),
        (q.run env m ctx c s).1 = .ok (.success v d) → ∃ w,
          stratified operand ops ls w v ∧ c.rest = w ++ d.rest ∧ d = Cursor.next^[w.length] c := by
  have htighter : ls.Pairwise fun a b => a.tighter b = true :=
    hls.imp Level.tighter_iff_bindsBefore.mpr
  have hlevels : ∀ l, l ∈ ls ↔ ∃ e ∈ ops.map entry, e.level = l := by
    intro l
    rw [hmem]
    simp only [List.mem_map, exists_exists_and_eq_and, level_entry]
  have hconsistent : ∀ e ∈ ops.map entry, e.isConsistent = true := by
    intro e he
    obtain ⟨o, -, rfl⟩ := List.mem_map.mp he
    exact o.isConsistent_entry
  have hinterprets := interprets_levels hoperand hdistinct houtside
    (Level.nodup_of_pairwise htighter)
  refine ⟨_, OperatorTable.build_eq_of_levels p hconsistent htighter hlevels, ?_, ?_⟩
  · -- what the grammar reads is settled on
    intro c w r v hc hw hr
    obtain ⟨n, hn⟩ := hinterprets.reads hc hw fun t ht ⟨o, ho, _, hne, htoken⟩ =>
      hne (hr t ht o ho htoken)
    exact ⟨n, fun m hm ctx s => ⟨_, hn m hm ctx s, rfl, TokenReader.rest_of_passed hc⟩⟩
  · -- a run that succeeds cannot be a refusal, so that it has read what the grammar reads
    intro c m ctx s v d hrun
    rcases hinterprets.decides c with ⟨reason, -, hsettles⟩ | ⟨w, r, a, hc, hw, hread⟩
    · cases hsettles.eq_of_run hrun
    · cases hread.eq_of_run hrun
      exact ⟨w, hw, by rw [TokenReader.rest_of_passed hc, hc], rfl⟩

/-! ### A table of two operators -/

/-- The operator that is the given token. -/
def ofToken [BEq T] [LawfulBEq T] [Shown T] {env : Environment (TokenTest T) ρ} (token : T)
    (level : Level) (combiner : Combiner T O)
    (h : (Operator.ofCombiner (.token token : Parser (TokenTest T) ρ T) combiner).arity =
      level.associativity.arity) : TokenOperator env T O where
  token
  level
  Value := T
  parser := .token token
  value := token
  combiner
  reads := (Parser.readsTokens_satisfy _ _).congr fun t k => by
    rw [beq_iff_eq]
    constructor
    · rintro ⟨rfl, rfl⟩
      exact ⟨rfl, rfl⟩
    · rintro ⟨rfl, rfl⟩
      exact ⟨rfl, rfl⟩
  isConsistent := h

namespace Differences

/-- Nothing has a name. -/
def names : Environment (TokenTest Char) Int :=
  ⟨fun _ => .dropped, fun _ => .abort "nothing"⟩

def subtract : TokenOperator names Char Int :=
  .ofToken '-' ⟨6, .left⟩ (.ofBinary (· - ·)) rfl

def negate : TokenOperator names Char Int :=
  .ofToken '~' ⟨9, .before⟩ (.ofUnary (- ·)) rfl

def digitValue (c : Char) : Int :=
  (c.toNat - '0'.toNat : Nat)

/-- One decimal digit. -/
def digit : Parser (TokenTest Char) Int Int :=
  .map digitValue (.satisfy "digit" Char.isDigit)

/-- What a digit means. -/
def IsDigit (t : Char) (x : Int) : Prop :=
  t.isDigit = true ∧ x = digitValue t

end Differences

open Differences in
/-- What follows may begin with an operator that only stands in front. -/
theorem build_parses_stratified_differences :
    ∃ q, OperatorTable.build ⟨digit, [subtract, negate].map entry⟩ = .ok q ∧
      ∃ n, ∀ ctx s, ∃ d : TokenReader Char,
        (q.run names n ctx (.ofList "8-~3-2~1".toList (.offset 0) ⟨0⟩) s).1 =
          .ok (.success 9 d) ∧ d.rest = "~1".toList := by
  have hdigit : digit.ReadsTokens names IsDigit := by
    refine (Parser.ReadsTokens.map _ (Parser.readsTokens_satisfy _ _)).congr fun t x => ?_
    constructor
    · rintro ⟨c, ⟨ht, rfl⟩, hx⟩
      exact ⟨ht, hx⟩
    · rintro ⟨ht, hx⟩
      exact ⟨t, ⟨ht, rfl⟩, hx⟩
  have houtside : ∀ o ∈ [subtract, negate], ∀ x, ¬IsDigit o.token x := by
    rintro o ho x ⟨ht, -⟩
    rcases List.mem_pair.mp ho with rfl | rfl <;> cases ht
  have hlevels : [⟨9, .before⟩, ⟨6, .left⟩].Pairwise Level.BindsBefore := by
    refine List.pairwise_pair.mpr (Or.inl ?_)
    decide
  have hdistinct : ([subtract, negate].map token).Nodup := by decide
  have hmem (l : Level) : l ∈ [⟨9, .before⟩, ⟨6, .left⟩] ↔
      ∃ o ∈ [subtract, negate], o.level = l := by
    simp [subtract, negate, ofToken, eq_comm, or_comm]
  obtain ⟨q, hq, hreads, -⟩ := build_parses_stratified hdigit hdistinct houtside hlevels hmem
  have hsubtract : infixesAt [subtract, negate] ⟨6, .left⟩ '-' (· - ·) :=
    ⟨subtract, List.mem_cons_self, rfl, rfl, rfl⟩
  have hnegate : marksAt [subtract, negate] ⟨9, .before⟩ '~' (- ·) :=
    ⟨negate, List.mem_cons_of_mem _ List.mem_cons_self, rfl, rfl, rfl⟩
  have hreading : stratified IsDigit [subtract, negate] [⟨9, .before⟩, ⟨6, .left⟩]
      (['8'] ++ '-' :: ['~', '3'] ++ '-' :: ['2']) (8 - -3 - 2) := by
    refine .left (.left ?_ hsubtract ?_) hsubtract ?_
    · exact .operand (.operand ⟨'8', rfl, rfl, rfl⟩)
    · exact .before hnegate (.operand ⟨'3', rfl, rfl, rfl⟩)
    · exact .operand ⟨'2', rfl, rfl, rfl⟩
  have hbehind : ∀ t ∈ ['~', '1'].head?, ∀ o ∈ [subtract, negate], o.token = t →
      o.level.associativity = .before := by
    intro t ht o ho htoken
    cases ht
    rcases List.mem_pair.mp ho with rfl | rfl
    · cases htoken
    · rfl
  obtain ⟨n, hn⟩ := hreads (.ofList "8-~3-2~1".toList (.offset 0) ⟨0⟩) _ _ _ rfl hreading hbehind
  refine ⟨q, hq, n, fun ctx s => ?_⟩
  obtain ⟨d, hrun, -, hrest⟩ := hn n (Nat.le_refl n) ctx s
  exact ⟨d, hrun, hrest⟩

end TokenOperator

end Parsing
