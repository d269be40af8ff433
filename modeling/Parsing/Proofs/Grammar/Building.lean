import Parsing.Grammar.Basic
import Parsing.Proofs.Parser.Grounded

/-!
# Building a grammar

However a grammar was built, while other grammars were built and dropped as well (`Grammar.Built`),
once it can be finished all of its rules have parsers, and all keep memos or none does
(`Built.binding_of_finish`). If all do, and their parsers are grounded in the rules, then that is
all that is to be known of them (`Environment.Packrat`).
-/

namespace Parsing

variable {π : Type → Type} {ρ : Type} {reg reg' : Registry π ρ} {packrat : Bool} {g g' : Grammar}

/-- Whether the registry knows of a rule, which keeps a memo or does not. -/
def Registry.Declared (reg : Registry π ρ) (packrat : Bool) (r : RuleId) : Prop :=
  ∃ slot, reg.slots[r.number]? = some slot ∧ slot.packrat = packrat

/-- Changing what is known of a rule leaves the rules declared, with memos as before. -/
theorem Registry.Declared.modify {r : RuleId} (h : reg.Declared packrat r) (r' : RuleId)
    {f : RuleSlot π ρ → RuleSlot π ρ} (hf : ∀ slot, (f slot).packrat = slot.packrat) :
    (reg.modify r' f).Declared packrat r := by
  obtain ⟨slot, hslot, rfl⟩ := h
  refine ⟨if r'.number = r.number then f slot else slot, ?_, ?_⟩
  · rw [Registry.modify, List.getElem?_modify, hslot]
    rfl
  · split
    · exact hf slot
    · rfl

/-- Binding leaves the rules declared. -/
theorem Registry.Declared.bind {r : RuleId} (h : reg.Declared packrat r) {r' : Rule}
    {build : BuildId} {body : Parser π ρ ρ} (hrun : reg.bind r' build body = .ok reg') :
    reg'.Declared packrat r := by
  unfold Registry.bind at hrun
  split at hrun
  · cases hrun
    exact h.modify _ fun _ => rfl
  · cases hrun
  · cases hrun

/-- Another rule leaves those before it declared. -/
theorem Registry.Declared.append {r : RuleId} (h : reg.Declared packrat r) (slot : RuleSlot π ρ) :
    (⟨reg.slots ++ [slot]⟩ : Registry π ρ).Declared packrat r := by
  obtain ⟨slot', hslot, rfl⟩ := h
  have hlt : r.number < reg.slots.length := (List.getElem?_eq_some_iff.mp hslot).1
  exact ⟨slot', by rw [List.getElem?_append_left hlt, hslot], rfl⟩

/-- Dropping leaves the rules declared. -/
theorem Registry.Declared.drop {r : RuleId} (h : reg.Declared packrat r) (rules : List Rule) :
    (reg.drop rules).Declared packrat r := by
  unfold Registry.drop
  induction rules generalizing reg with
  | nil => exact h
  | cons r' rules ih => exact ih (h.modify r'.id fun _ => rfl)

namespace Grammar

/-- A declaration numbers the rule by those before it, and appends it to the grammar and to the
registry. -/
theorem slots_of_declare {name : String} {r : Rule} (h : g.declare name reg = .ok (r, g', reg')) :
    r.id.number = reg.slots.length ∧ g' = { g with rules := g.rules ++ [r] } ∧
      reg' = ⟨reg.slots ++ [{ name, packrat := g.packrat }]⟩ := by
  unfold declare at h
  split at h
  · cases h
  · cases h
    exact ⟨rfl, rfl, rfl⟩

/-- The grammars, with the rules of all of them, that building leads to. -/
inductive Built (packrat : Bool) : Grammar → Registry π ρ → Prop where
  | start (reg : Registry π ρ) : Built packrat { packrat } reg
  | declare {g g' : Grammar} {reg reg' : Registry π ρ} {name : String} {r : Rule}
    (h : Built packrat g reg) (hrun : g.declare name reg = .ok (r, g', reg')) :
    Built packrat g' reg'
  | bind {g : Grammar} {reg reg' : Registry π ρ} {r : Rule} {build : BuildId} {body : Parser π ρ ρ}
    (h : Built packrat g reg) (hrun : reg.bind r build body = .ok reg') : Built packrat g reg'
  /-- Another grammar declares a rule. -/
  | other {g other other' : Grammar} {reg reg' : Registry π ρ} {name : String} {r : Rule}
    (h : Built packrat g reg) (hrun : other.declare name reg = .ok (r, other', reg')) :
    Built packrat g reg'
  | drop {g : Grammar} {reg : Registry π ρ} (rules : List Rule) (h : Built packrat g reg) :
    Built packrat g (reg.drop rules)

/-- No step changes whether the rules of a grammar keep memos. -/
theorem Built.packrat_eq (h : Built packrat g reg) : g.packrat = packrat := by
  induction h with
  | start => rfl
  | declare _ hrun ih =>
    obtain ⟨-, rfl, -⟩ := slots_of_declare hrun
    exact ih
  | bind _ _ ih | other _ _ ih | drop _ _ ih => exact ih

/-- The registry knows of all rules of a grammar that is built. -/
theorem Built.declared (h : Built packrat g reg) {r : Rule} (hr : r ∈ g.rules) :
    reg.Declared packrat r.id := by
  induction h with
  | start => cases hr
  | @declare g _ _ _ name _ h hrun ih =>
    obtain ⟨hid, rfl, rfl⟩ := slots_of_declare hrun
    rcases List.mem_append.mp hr with hr | hr
    · exact (ih hr).append _
    · cases List.mem_singleton.mp hr
      refine ⟨{ name, packrat := g.packrat }, ?_, h.packrat_eq⟩
      rw [hid, List.getElem?_append_right (Nat.le_refl _), Nat.sub_self]
      rfl
  | bind _ hrun ih => exact (ih hr).bind hrun
  | other _ hrun ih =>
    obtain ⟨-, -, rfl⟩ := slots_of_declare hrun
    exact (ih hr).append _
  | drop rules _ ih => exact (ih hr).drop rules

/-- The parser of a grammar has the rules of the grammar, and has seen no input. -/
theorem eq_of_finish {start : Rule} {parser : GrammarParser}
    (h : g.finish start reg = .ok parser) : parser = { start, rules := g.rules } := by
  unfold finish at h
  split at h <;> cases h
  rfl

/-- A finished grammar has a parser for every rule. -/
theorem Built.binding_of_finish (h : Built packrat g reg) {start : Rule} {parser : GrammarParser}
    (hfinish : g.finish start reg = .ok parser) {r : Rule} (hr : r ∈ g.rules) :
    ∃ build body, reg.binding r.id = .bound packrat build body := by
  have hbound : reg.isBound r = true := by
    unfold finish at hfinish
    split at hfinish
    · rename_i hnil
      by_contra hr'
      exact List.ne_nil_of_mem (List.mem_filter.mpr ⟨hr, by simpa using hr'⟩) hnil
    · cases hfinish
  obtain ⟨slot, hslot, rfl⟩ := h.declared hr
  unfold Registry.isBound Registry.binding at hbound
  unfold Registry.binding
  rw [hslot] at hbound ⊢
  rcases slot with ⟨name, packrat, _ | ⟨build, body⟩, _ | _⟩
  · cases hbound
  · cases hbound
  · exact ⟨build, body, rfl⟩
  · cases hbound

end Grammar

/-- Whether some rules all keep memos and have parsers that are grounded in these rules; `aborts`
tells whether the parsers may abort. -/
def Environment.Packrat (env : Environment π ρ) (C : Type) [Primitive.Runs π C]
    (rules : List RuleId) (aborts : Prop) : Prop :=
  ∀ r ∈ rules, ∃ build body,
    env.rule r = .bound true build body ∧ body.All (Parser.Grounded C rules aborts)

/-- The identities of the rules of a grammar. -/
def Grammar.ruleIds (g : Grammar) : List RuleId :=
  g.rules.map Rule.id

/-- A finished grammar with memos whose parsers are grounded in its rules is all that is to be known
of them. -/
theorem Grammar.Built.packrat_environment {C : Type} [Primitive.Runs π C] (h : Built true g reg)
    {start : Rule} {parser : GrammarParser} (hfinish : g.finish start reg = .ok parser)
    {aborts : Prop} (hbodies : ∀ r ∈ g.ruleIds, ∀ packrat build body,
      reg.binding r = .bound packrat build body → body.All (Parser.Grounded C g.ruleIds aborts))
    (definition : String → Parser π ρ ρ) :
    Environment.Packrat ⟨reg.binding, definition⟩ C g.ruleIds aborts := by
  intro id hid
  obtain ⟨r, hr, rfl⟩ := List.mem_map.mp hid
  obtain ⟨build, body, hbound⟩ := h.binding_of_finish hfinish hr
  exact ⟨build, body, hbound, hbodies r.id hid true build body hbound⟩

end Parsing
