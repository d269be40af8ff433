import Parsing.Proofs.Text.Scan
import Parsing.Text.Engine

/-!
# Parsers from patterns are anchored

What an engine for patterns has to be is said by its documentation (`PatternEngine.Lawful`): in
which ways `^`, a group without a number and one pattern behind another one may be read, which way
is preferred, and that the match that is found is the leftmost one, read in the preferred way. That
a match is a part of the text, between characters of it, is in the type of what is found.

A pattern that is one by itself is then found where the text begins (`find_anchoredText`), so that
its parser comes to what the pattern prefers to read at the cursor (`Parser.run_pattern`). A pattern
may also be none by itself but one in the group, since it closes that group early. Then it may skip
what stands in front of a match (`Parser.run_pattern_unbalanced`).
-/

namespace Parsing

/-- In which ways a pattern may be read behind a text and off the front of another one, the
preferred way first. -/
abbrev Ways :=
  (pattern before after : List Char) → List (List Char)

namespace PatternEngine

open Text (enclosedText anchoredText)

/-- What is documented of an engine: the meaning of the syntax that anchored patterns are written
with, and that a search comes to the leftmost match, read in the preferred way. -/
structure Lawful [PatternEngine] (ways : Ways) : Prop where
  /-- `^` is the start of the text. -/
  ways_start (before after : List Char) : ways ['^'] before after = if before = [] then [[]] else []
  /-- A group without a number is what is in it. -/
  ways_enclosedText {pattern : List Char} (h : (compile pattern).isSome)
    (hanchored : (compile (anchoredText pattern)).isSome) :
    ways (enclosedText pattern) = ways pattern
  /-- A group behind the start of the text is read behind it. -/
  ways_anchoredText {pattern : List Char} (h : (compile pattern).isSome)
    (hanchored : (compile (anchoredText pattern)).isSome) (before after : List Char) :
    ways (anchoredText pattern) before after = (ways ['^'] before after).flatMap fun read =>
      (ways (enclosedText pattern) (before ++ read) (after.drop read.length)).map (read ++ ·)
  /-- If nothing is found, there is no match. -/
  find_eq_none {pattern text : List Char} {find} (h : compile pattern = some find)
    (hnone : find text = none) (before after : List Char) (htext : before ++ after = text) :
    ways pattern before after = []
  /-- What is found is read in the preferred way. -/
  find_eq_some {pattern text : List Char} {find} (h : compile pattern = some find)
    {m : Found text} (hsome : find text = some m) :
    (ways pattern m.skipped (m.read ++ m.rest)).head? = some m.read
  /-- No match begins in front of what is found. -/
  find_leftmost {pattern text : List Char} {find} (h : compile pattern = some find)
    {m : Found text} (hsome : find text = some m) (before after : List Char)
    (htext : before ++ after = text) (hbefore : before.length < m.skipped.length) :
    ways pattern before after = []

namespace Lawful

variable [PatternEngine] {ways : Ways} {pattern : List Char}

/-- A pattern in a group behind the start is read at the start of a text, as it is by itself. -/
theorem ways_anchoredText_eq (hlaws : Lawful ways) (h : (compile pattern).isSome)
    (hanchored : (compile (anchoredText pattern)).isSome) (before after : List Char) :
    ways (anchoredText pattern) before after =
      if before = [] then ways pattern [] after else [] := by
  rw [hlaws.ways_anchoredText h hanchored, hlaws.ways_start, hlaws.ways_enclosedText h hanchored]
  split
  · rename_i hbefore
    simp [hbefore]
  · rfl

/-- A search for an anchored pattern comes to what the pattern prefers to read at the start. -/
theorem find_anchoredText (hlaws : Lawful ways) (h : (compile pattern).isSome)
    {find : (text : List Char) → Option (Found text)}
    (hfind : compile (anchoredText pattern) = some find) (text : List Char) :
    (find text = none ∧ ways pattern [] text = []) ∨
      ∃ m : Found text, find text = some m ∧ m.skipped = [] ∧
        (ways pattern [] text).head? = some m.read := by
  have hanchored : (compile (anchoredText pattern)).isSome := Option.isSome_of_eq_some hfind
  rcases hfound : find text with _ | m
  · have hnone := hlaws.find_eq_none hfind hfound [] text rfl
    rw [hlaws.ways_anchoredText_eq h hanchored, if_pos rfl] at hnone
    exact .inl ⟨rfl, hnone⟩
  · have hread := hlaws.find_eq_some hfind hfound
    rw [hlaws.ways_anchoredText_eq h hanchored] at hread
    split at hread
    · rename_i hskipped
      have htext : m.read ++ m.rest = text := by
        have heq := m.append_eq
        rwa [hskipped, List.nil_append] at heq
      rw [htext] at hread
      exact .inr ⟨m, rfl, hskipped, hread⟩
    · cases hread

end Lawful

end PatternEngine

namespace Parser

open PatternEngine (compile)

variable {ρ : Type} [PatternEngine]

/-- The parser of a pattern that the engine compiles in the group. -/
theorem pattern?_of_compile {pattern : String} {find : (text : List Char) → Option (Found text)}
    (h : compile (Text.anchoredText pattern.toList) = some find) :
    pattern? (ρ := ρ) pattern = .ok (scan ⟨s!"/{pattern}/",
      fun text => (find text).map fun m => (m.value, m.stop)⟩) := by
  rw [pattern?, Text.pattern?, h]
  rfl

/-- A pattern that the engine refuses in the group is none. -/
theorem pattern?_of_not_compile {pattern : String}
    (h : compile (Text.anchoredText pattern.toList) = none) :
    pattern? (ρ := ρ) pattern = .error .invalidPattern := by
  rw [pattern?, Text.pattern?, h]
  rfl

/-- A parser of a pattern is that of what the engine has compiled. -/
theorem exists_compile_of_pattern? {pattern : String} {p : Parser TextPrimitive ρ String}
    (h : pattern? pattern = .ok p) :
    ∃ find, compile (Text.anchoredText pattern.toList) = some find ∧
      p = scan ⟨s!"/{pattern}/", fun text => (find text).map fun m => (m.value, m.stop)⟩ := by
  rcases hcompile : compile (Text.anchoredText pattern.toList) with _ | find
  · rw [pattern?_of_not_compile hcompile] at h
    cases h
  · rw [pattern?_of_compile hcompile] at h
    cases h
    exact ⟨find, rfl, rfl⟩

section

variable {C : Type} [TextCursor C] [Cursor.Lawful C] [Cursor.Listed C] [TextCursor.Exact C]

omit [PatternEngine] in
/-- A scanner of what is found moves behind it. -/
theorem run_found (expected : String) {find : (text : List Char) → Option (Found text)} {c : C}
    {m : Found (TextCursor.rest c)} (h : find (TextCursor.rest c) = some m)
    (env : Environment TextPrimitive ρ) (fuel : ℕ) (ctx : Context TextPrimitive ρ)
    (t : Session C ρ) :
    (scan ⟨expected, fun text => (find text).map fun m => (m.value, m.stop)⟩).run env (fuel + 1)
        ctx c t =
      (.ok (.success m.value (Cursor.next^[(m.skipped ++ m.read).length] c)), t) ∧
    TextCursor.rest (Cursor.next^[(m.skipped ++ m.read).length] c) = m.rest := by
  have hrest : TextCursor.rest c = m.skipped ++ m.read ++ m.rest := m.append_eq.symm
  refine ⟨run_scan (Recognizer.scan_of_some hrest ?_) env fuel ctx t, ?_⟩
  · simp only [h, Option.map_some]
    rfl
  · rw [TextCursor.rest_iterate_next]
    exact (congrArg (List.drop (m.skipped ++ m.read).length) hrest).trans List.drop_left

omit [PatternEngine] [Cursor.Lawful C] [Cursor.Listed C] [TextCursor.Exact C] in
/-- A scanner that finds nothing fails. -/
theorem run_not_found (expected : String) {find : (text : List Char) → Option (Found text)} {c : C}
    (h : find (TextCursor.rest c) = none) (env : Environment TextPrimitive ρ) (fuel : ℕ)
    (ctx : Context TextPrimitive ρ) (t : Session C ρ) :
    (scan ⟨expected, fun text => (find text).map fun m => (m.value, m.stop)⟩).run env (fuel + 1)
        ctx c t =
      (.ok (.noSuccess (.failure expected (Cursor.location c))), t) := by
  refine run_scan (Recognizer.scan_of_none ?_) env fuel ctx t
  simp only [h, Option.map_none]

/-- A pattern that the engine refuses as a group behind the start is no pattern. The parser of any
other one fails, or comes to a part of the text that is left and goes on behind it. If the pattern
is one by itself, nothing is skipped: the parser comes to what the pattern prefers to read at the
cursor, and fails if it can read nothing there. -/
theorem run_pattern {ways : Ways} (hlaws : PatternEngine.Lawful ways) (pattern : String) :
    (compile (Text.anchoredText pattern.toList) = none →
      pattern? (ρ := ρ) pattern = .error .invalidPattern) ∧
    ∀ p : Parser TextPrimitive ρ String, pattern? pattern = .ok p →
      ∀ (env : Environment TextPrimitive ρ) (fuel : ℕ) (ctx : Context TextPrimitive ρ) (c : C)
        (t : Session C ρ),
      (p.run env (fuel + 1) ctx c t =
          (.ok (.noSuccess (.failure s!"/{pattern}/" (Cursor.location c))), t) ∨
        ∃ skipped read rest, TextCursor.rest c = skipped ++ read ++ rest ∧
          p.run env (fuel + 1) ctx c t =
            (.ok (.success (String.ofList read) (Cursor.next^[(skipped ++ read).length] c)), t) ∧
          TextCursor.rest (Cursor.next^[(skipped ++ read).length] c) = rest) ∧
      ((compile pattern.toList).isSome →
        (ways pattern.toList [] (TextCursor.rest c) = [] → p.run env (fuel + 1) ctx c t =
          (.ok (.noSuccess (.failure s!"/{pattern}/" (Cursor.location c))), t)) ∧
        ∀ read ∈ (ways pattern.toList [] (TextCursor.rest c)).head?,
          ∃ rest, TextCursor.rest c = read ++ rest ∧
            p.run env (fuel + 1) ctx c t =
              (.ok (.success (String.ofList read) (Cursor.next^[read.length] c)), t) ∧
            TextCursor.rest (Cursor.next^[read.length] c) = rest) := by
  refine ⟨pattern?_of_not_compile, fun p hp env fuel ctx c t => ?_⟩
  obtain ⟨find, hfind, rfl⟩ := exists_compile_of_pattern? hp
  refine ⟨?_, fun hown => ?_⟩
  · -- whatever the pattern is, what is found is a part of the text
    rcases hfound : find (TextCursor.rest c) with _ | m
    · exact .inl (run_not_found s!"/{pattern}/" hfound env fuel ctx t)
    · obtain ⟨hrun, hrest⟩ := run_found s!"/{pattern}/" hfound env fuel ctx t
      exact .inr ⟨m.skipped, m.read, m.rest, m.append_eq.symm, hrun, hrest⟩
  · -- a pattern by itself is found where it can be read at the start, and nowhere else
    rcases hlaws.find_anchoredText hown hfind (TextCursor.rest c) with
      ⟨hnone, hways⟩ | ⟨m, hsome, hskipped, hread⟩
    · refine ⟨fun _ => run_not_found s!"/{pattern}/" hnone env fuel ctx t, fun read hmem => ?_⟩
      rw [hways] at hmem
      cases hmem
    · refine ⟨fun hways => ?_, fun read hmem => ?_⟩
      · rw [hways] at hread
        cases hread
      · rw [hread] at hmem
        cases hmem
        obtain ⟨hrun, hrest⟩ := run_found s!"/{pattern}/" hsome env fuel ctx t
        have hlength : m.skipped ++ m.read = m.read := by rw [hskipped, List.nil_append]
        rw [hlength] at hrun hrest
        have htext := m.append_eq
        rw [hlength] at htext
        exact ⟨m.rest, htext.symm, hrun, hrest⟩

end

end Parser

/-! ### An engine of a few patterns -/

namespace Letters

/-- What patterns of letters mean. -/
inductive Expression where
  | start
  | letter (c : Char)
  | sequence (r s : Expression)
  | either (r s : Expression)

namespace Expression

/-- In which ways an expression may be read, the preferred way first. -/
def ways : Expression → (before after : List Char) → List (List Char)
  | .start, before, _ => if before = [] then [[]] else []
  | .letter c, _, after => if after.head? = some c then [[c]] else []
  | .sequence r s, before, after => (r.ways before after).flatMap fun read =>
    (s.ways (before ++ read) (after.drop read.length)).map (read ++ ·)
  | .either r s, before, after => r.ways before after ++ s.ways before after

/-- What an expression prefers to read at one place of a text. -/
def foundAt (r : Expression) {text : List Char} (before after : List Char)
    (h : before ++ after = text) : Option (Found text) :=
  (r.ways before after).head?.map fun read =>
    ⟨before, after.take read.length, after.drop read.length, by simpa using h⟩

/-- Looks for an expression at one place of a text after another. -/
def search (r : Expression) {text : List Char} :
    (before after : List Char) → before ++ after = text → Option (Found text)
  | before, [], h => r.foundAt before [] h
  | before, c :: after, h =>
    (r.foundAt before (c :: after) h).or (r.search (before ++ [c]) after (by simpa using h))

variable {r : Expression} {text before after before' after' read : List Char} {m : Found text}

/-- What an expression reads stands in front of what is left. -/
theorem prefix_of_mem_ways (h : read ∈ r.ways before after) : read <+: after := by
  induction r generalizing before after read with
  | start =>
    rw [ways] at h
    split at h
    · rw [List.mem_singleton.mp h]
      exact List.nil_prefix
    · cases h
  | letter c =>
    rw [ways] at h
    split at h
    · rename_i hhead
      obtain ⟨rest, rfl⟩ := List.head?_eq_some_iff.mp hhead
      rw [List.mem_singleton.mp h]
      exact ⟨rest, rfl⟩
    · cases h
  | sequence r s ihr ihs =>
    obtain ⟨first, hfirst, hread⟩ := List.mem_flatMap.mp h
    obtain ⟨second, hsecond, rfl⟩ := List.mem_map.mp hread
    obtain ⟨rest, rfl⟩ := ihr hfirst
    have hprefix := ihs hsecond
    rw [List.drop_left] at hprefix
    exact (List.prefix_append_right_inj first).mpr hprefix
  | either r s ihr ihs => exact (List.mem_append.mp h).elim ihr ihs

/-- Nothing is found at a place where an expression can read nothing. -/
theorem ways_eq_nil_of_foundAt {h : before ++ after = text}
    (hnone : r.foundAt before after h = none) :
    r.ways before after = [] :=
  List.head?_eq_none_iff.mp (Option.map_eq_none_iff.mp hnone)

/-- What is found at a place is what the expression prefers to read there. -/
theorem foundAt_eq_some {h : before ++ after = text} (hsome : r.foundAt before after h = some m) :
    m.skipped = before ∧ (r.ways m.skipped (m.read ++ m.rest)).head? = some m.read := by
  obtain ⟨read, hhead, rfl⟩ := Option.map_eq_some_iff.mp hsome
  obtain ⟨rest, rfl⟩ := prefix_of_mem_ways (List.mem_of_head? hhead)
  refine ⟨rfl, ?_⟩
  simpa using hhead

/-- A place of a text that is not in front of another one is that one, or it is behind it. -/
theorem eq_or_lt_of_append_eq (h : before ++ after = text) (h' : before' ++ after' = text)
    (hle : before.length ≤ before'.length) :
    (before' = before ∧ after' = after) ∨ before.length < before'.length := by
  rcases Nat.eq_or_lt_of_le hle with hlength | hlt
  · exact .inl (List.append_inj (h'.trans h.symm) hlength.symm)
  · exact .inr hlt

/-- A search that finds nothing has been at every place from which it went on. -/
theorem search_eq_none (h : before ++ after = text) (hnone : r.search before after h = none)
    (h' : before' ++ after' = text) (hle : before.length ≤ before'.length) :
    r.ways before' after' = [] := by
  induction after generalizing before with
  | nil =>
    rcases eq_or_lt_of_append_eq h h' hle with ⟨rfl, rfl⟩ | hlt
    · exact ways_eq_nil_of_foundAt hnone
    · have hlength := congrArg List.length (h'.trans h.symm)
      rw [List.length_append, List.length_append, List.length_nil] at hlength
      omega
  | cons c after ih =>
    obtain ⟨hhere, hthere⟩ := Option.or_eq_none_iff.mp hnone
    rcases eq_or_lt_of_append_eq h h' hle with ⟨rfl, rfl⟩ | hlt
    · exact ways_eq_nil_of_foundAt hhere
    · exact ih _ hthere (by rwa [List.length_append])

/-- What a search finds is what the expression prefers to read at the first place where it can read
something. -/
theorem search_eq_some (h : before ++ after = text) (hsome : r.search before after h = some m) :
    (r.ways m.skipped (m.read ++ m.rest)).head? = some m.read ∧
      ∀ before' after', before' ++ after' = text → before.length ≤ before'.length →
        before'.length < m.skipped.length → r.ways before' after' = [] := by
  induction after generalizing before with
  | nil =>
    obtain ⟨hskipped, hread⟩ := foundAt_eq_some hsome
    refine ⟨hread, fun before' after' _ hle hlt => ?_⟩
    rw [hskipped] at hlt
    exact absurd hlt (Nat.not_lt_of_le hle)
  | cons c after ih =>
    rcases Option.or_eq_some_iff.mp hsome with hhere | ⟨hhere, hthere⟩
    · obtain ⟨hskipped, hread⟩ := foundAt_eq_some hhere
      refine ⟨hread, fun before' after' _ hle hlt => ?_⟩
      rw [hskipped] at hlt
      exact absurd hlt (Nat.not_lt_of_le hle)
    · obtain ⟨hread, hleftmost⟩ := ih _ hthere
      refine ⟨hread, fun before' after' h' hle hlt => ?_⟩
      rcases eq_or_lt_of_append_eq h h' hle with ⟨rfl, rfl⟩ | hbehind
      · exact ways_eq_nil_of_foundAt hhere
      · exact hleftmost before' after' h' (by rwa [List.length_append]) hlt

/-- One letter or another one. -/
def alternatives : Expression :=
  .either (.letter 'a') (.letter 'b')

end Expression

open Expression (alternatives)

/-- The patterns that are known, with what they mean. -/
def meanings : List (List Char × Expression) :=
  [("^".toList, .start),
    ("a|b".toList, alternatives),
    ("(?:a|b)".toList, alternatives),
    ("^(?:a|b)".toList, .sequence .start alternatives),
    ("^(?:a)|(?:b)".toList, .either (.sequence .start (.letter 'a')) (.letter 'b'))]

/-- What a pattern means, if it is known. -/
def expression? (pattern : List Char) : Option Expression :=
  meanings.lookup pattern

/-- In which ways a pattern that is known may be read. -/
def ways : Ways := fun pattern before after =>
  ((expression? pattern).map fun r => r.ways before after).getD []

/-- The engine of the patterns that are known. -/
abbrev engine : PatternEngine where
  compile pattern := (expression? pattern).map fun r _ => r.search [] _ rfl

variable {pattern text before after : List Char}

/-- The only pattern that is known by itself and in a group behind the start. -/
theorem eq_of_isSome (h : (expression? pattern).isSome)
    (hanchored : (expression? (Text.anchoredText pattern)).isSome) : pattern = "a|b".toList := by
  obtain ⟨r, hlookup⟩ := Option.isSome_iff_exists.mp h
  obtain ⟨l₁, l₂, hmeanings, -⟩ := List.lookup_eq_some_iff.mp hlookup
  have hmem : (pattern, r) ∈ meanings := by
    rw [hmeanings]
    exact List.mem_append_right _ List.mem_cons_self
  have hpattern := List.mem_map_of_mem (f := Prod.fst) hmem
  simp only [meanings, List.map_cons, List.map_nil, List.mem_cons, List.not_mem_nil,
    or_false] at hpattern
  rcases hpattern with rfl | rfl | rfl | rfl | rfl <;> revert hanchored <;> decide

/-- What the engine of the patterns that are known compiles. -/
theorem exists_of_compile {find : (text : List Char) → Option (Found text)}
    (h : @PatternEngine.compile engine pattern = some find) :
    ∃ r, expression? pattern = some r ∧ find = fun _ => r.search [] _ rfl := by
  obtain ⟨r, hmeans, rfl⟩ := Option.map_eq_some_iff.mp h
  exact ⟨r, hmeans, rfl⟩

theorem ways_eq {r : Expression} (h : expression? pattern = some r) (before after : List Char) :
    ways pattern before after = r.ways before after := by
  rw [ways, h]
  rfl

/-- The engine of the patterns that are known is one as documented. -/
theorem lawful : @PatternEngine.Lawful engine ways :=
  letI := engine
  { ways_start := fun _ _ => rfl
    ways_enclosedText := fun h hanchored => by
      obtain rfl := eq_of_isSome (Option.isSome_map.symm.trans h)
        (Option.isSome_map.symm.trans hanchored)
      rfl
    ways_anchoredText := fun h hanchored _ _ => by
      obtain rfl := eq_of_isSome (Option.isSome_map.symm.trans h)
        (Option.isSome_map.symm.trans hanchored)
      rfl
    find_eq_none := fun h hnone before after htext => by
      obtain ⟨r, hmeans, rfl⟩ := exists_of_compile h
      rw [ways_eq hmeans]
      exact Expression.search_eq_none rfl hnone htext (Nat.zero_le _)
    find_eq_some := fun h m hsome => by
      obtain ⟨r, hmeans, rfl⟩ := exists_of_compile h
      rw [ways_eq hmeans]
      exact (Expression.search_eq_some rfl hsome).1
    find_leftmost := fun h m hsome before after htext hbefore => by
      obtain ⟨r, hmeans, rfl⟩ := exists_of_compile h
      rw [ways_eq hmeans]
      exact (Expression.search_eq_some rfl hsome).2 before after htext (Nat.zero_le _) hbefore }

/-- The start of a text. -/
def cursor (text : List Char) : TextReader :=
  .ofChars text (.lineColumn {}) ⟨0⟩

end Letters

namespace Parser

open Letters

/-- The parser comes to the letter where it stands, and fails where there is none. -/
theorem run_pattern_alternatives : ∃ p : Parser TextPrimitive Unit String,
    @pattern? Unit engine "a|b" = .ok p ∧
      ∀ (env : Environment TextPrimitive Unit) (t : Session TextReader Unit),
        p.run env 1 {} (cursor ['b', 'x']) t =
          (.ok (.success "b" (Cursor.next (cursor ['b', 'x']))), t) ∧
        p.run env 1 {} (cursor ['x', 'b']) t =
          (.ok (.noSuccess (.failure "/a|b/" (Cursor.location (cursor ['x', 'b'])))), t) := by
  refine ⟨_, rfl, fun env t => ⟨?_, ?_⟩⟩
  · obtain ⟨-, hrun⟩ := (@run_pattern Unit engine _ _ _ _ _ _ lawful "a|b").2 _ rfl env 0 {}
      (cursor ['b', 'x']) t
    obtain ⟨rest, -, hrun, -⟩ := (hrun rfl).2 ['b'] rfl
    exact hrun
  · obtain ⟨-, hrun⟩ := (@run_pattern Unit engine _ _ _ _ _ _ lawful "a|b").2 _ rfl env 0 {}
      (cursor ['x', 'b']) t
    exact (hrun rfl).1 rfl

/-- The pattern is none by itself. It is one in the group all the same, and its parser skips an
`x`. -/
theorem run_pattern_unbalanced : (∃ ways, @PatternEngine.Lawful engine ways) ∧
    @PatternEngine.compile engine "a)|(?:b".toList = none ∧
    ∃ p : Parser TextPrimitive Unit String, @pattern? Unit engine "a)|(?:b" = .ok p ∧
      ∀ (env : Environment TextPrimitive Unit) (t : Session TextReader Unit),
        p.run env 1 {} (cursor ['x', 'b']) t =
          (.ok (.success "b" ⟨['x', 'b'], [], 2, .lineColumn ⟨1, 2⟩, ⟨0⟩⟩), t) :=
  ⟨⟨ways, lawful⟩, rfl, _, rfl, fun env t => run_scan rfl env 0 {} t⟩

end Parser

end Parsing
