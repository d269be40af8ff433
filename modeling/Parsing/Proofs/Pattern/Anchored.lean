import Parsing.Proofs.Pattern.Nesting
import Parsing.Text.Pattern

/-!
# Matches at the start of a text

An expression that begins with the start of the text (`Regex.startsAt`) is matched there only: ways
through its automaton begin at no other place (`Regex.find_start`). A pattern between `^(?:` and `)`
is such an expression if it is a pattern by itself (`Regex.startsAt_of_read`), so that the engine
skips nothing in front of its matches (`skipped_of_compile?`). Else it may close the group in front
of its end, and have an alternative behind that which begins anywhere.
-/

namespace Parsing.Pattern

/-! ## Ways from the start -/

/-- Whether ways have all started at the start of the text. -/
def FromStart (ways : List Way) : Prop :=
  ∀ w ∈ ways, w.start = 0

/-- Whether nothing on a frontier has started anywhere else. -/
structure Frontier.FromStart (f : Frontier) : Prop where
  waiting : Pattern.FromStart f.waiting
  complete : ∀ start ∈ f.complete, start = 0

namespace Automaton

variable {m : Automaton} {before after : Option Char} {place fuel : Nat} {ways : List Way}
  {f : Frontier}

/-- Following a way does not change where it started. -/
theorem fromStart_settle (hways : FromStart ways) (hf : f.FromStart) :
    (m.settle before after place fuel ways f).FromStart := by
  induction fuel generalizing ways f with
  | zero => exact hf
  | succ fuel ih =>
    rcases ways with _ | ⟨⟨state, start⟩, ways⟩
    · exact hf
    · have hstart : start = 0 := hways _ List.mem_cons_self
      have hrest : FromStart ways := fun w hw => hways w (List.mem_cons_of_mem _ hw)
      have hcons {next : Nat} {ways : List Way} (h : FromStart ways) :
          FromStart (⟨next, start⟩ :: ways) := List.forall_mem_cons.mpr ⟨hstart, h⟩
      rw [settle]
      split
      · exact ih hrest hf
      · simp only
        split
        · exact ih hrest ⟨hf.waiting, hf.complete⟩
        · exact ⟨hf.waiting, fun _ h => (Option.mem_some.mp h).symm.trans hstart⟩
        · exact ih hrest ⟨hcons hf.waiting, hf.complete⟩
        · refine ih ?_ ⟨hf.waiting, hf.complete⟩
          split
          · exact hcons hrest
          · exact hrest
        · exact ih (hcons (hcons hrest)) ⟨hf.waiting, hf.complete⟩

/-- Reading a character does not change where ways started. -/
theorem fromStart_read (c : Char) {waiting : List Way} (h : FromStart waiting) :
    FromStart (m.read c waiting) := by
  refine List.foldlRecOn (motive := FromStart) waiting _ (fun _ hw => absurd hw List.not_mem_nil)
    fun ways hways w hw => ?_
  split
  · split
    · exact List.forall_mem_cons.mpr ⟨h w hw, hways⟩
    · exact hways
  · exact hways

/-- Behind the start of the text no way begins. -/
theorem fromStart_starting (hanchored : m.anchored = true) {best : Option (Nat × Nat)}
    (h : FromStart ways) :
    FromStart (if best.isNone && (place = 0 || !m.anchored) then ways ++ [⟨m.start, place⟩]
      else ways) := by
  split
  · rename_i hstarts
    rw [hanchored] at hstarts
    have hplace : place = 0 := by simpa using (Bool.and_eq_true_iff.mp hstarts).2
    exact List.forall_mem_append.mpr ⟨h, List.forall_mem_singleton.mpr hplace⟩
  · exact h

/-- A search for what begins with the start finds nothing else, by induction on the text. -/
theorem fromStart_search (hanchored : m.anchored = true) {text : List Char} {reached : Array Nat}
    {best : Option (Nat × Nat)} (hways : FromStart ways) (hbest : ∀ found ∈ best, found.1 = 0) :
    ∀ found ∈ m.search before text place ways reached best, found.1 = 0 := by
  -- what one place comes to, whatever comes behind it
  have hplace {before after : Option Char} {place fuel : Nat} {ways : List Way}
      {reached : Array Nat} {best : Option (Nat × Nat)} (hways : FromStart ways) {f : Frontier}
      (hsettle : m.settle before after place fuel
        (if best.isNone && (place = 0 || !m.anchored) then ways ++ [⟨m.start, place⟩] else ways)
        { reached } = f) : f.FromStart := by
    rw [← hsettle]
    refine fromStart_settle (fromStart_starting hanchored hways) ⟨?_, ?_⟩
    · exact fun _ hw => absurd hw List.not_mem_nil
    · exact fun _ hstart => absurd hstart (Option.not_mem_none _)
  induction text generalizing before place ways reached best with
  | nil =>
    unfold search
    simp only
    generalize hsettle : m.settle _ _ _ _ _ _ = f
    have hf := hplace hways hsettle
    split
    · rename_i start hcomplete
      exact fun found hfound => (Option.mem_some.mp hfound) ▸ hf.complete start hcomplete
    · exact hbest
  | cons c text ih =>
    unfold search
    simp only
    generalize hsettle : m.settle _ _ _ _ _ _ = f
    have hf := hplace hways hsettle
    split
    · rename_i start hcomplete
      have hfound : ∀ found ∈ some (start, place), found.1 = 0 :=
        fun found hfound => (Option.mem_some.mp hfound) ▸ hf.complete start hcomplete
      split
      · exact hfound
      · exact ih (fromStart_read c hf.waiting) hfound
    · split
      · exact hbest
      · exact ih (fromStart_read c hf.waiting) hbest

/-- A match of what begins with the start of the text is at the start. -/
theorem find_start (hanchored : m.anchored = true) {text : List Char} {start stop : Nat}
    (h : m.find text = some (start, stop)) : start = 0 :=
  fromStart_search hanchored (fun _ h => absurd h List.not_mem_nil)
    (fun _ h => absurd h (Option.not_mem_none _)) _ h

end Automaton

/-! ## Expressions that begin with the start -/

namespace Regex

/-- A sequence begins with its first part. -/
theorem exists_ofParts_eq (a : Anchor) (r : Regex) :
    ∃ rs, sequence [.anchor a, r] = ofParts (.anchor a :: rs) :=
  ⟨_, rfl⟩

/-- A choice that is none. -/
theorem choice_singleton {r : Regex} (h : r.branches = [r]) : choice [r] = r := by
  have hpos : ∃ n, r.weight = n + 1 := by cases r <;> exact ⟨_, rfl⟩
  obtain ⟨n, hn⟩ := hpos
  have hbranches : [r].flatMap branches = [r] := by
    rw [List.flatMap_cons, h]
    rfl
  rw [choice, List.foldr_cons, hn, Nat.add_right_comm, choiceOf, hbranches]

/-- A sequence that begins with an anchor begins with it as a choice, too. -/
theorem startsAt_choice_sequence (a : Anchor) (r : Regex) :
    (choice [sequence [.anchor a, r]]).startsAt .forward a = true := by
  obtain ⟨rs, hrs⟩ := exists_ofParts_eq a r
  rw [hrs]
  rcases rs with _ | ⟨s, rs⟩
  · rw [ofParts, choice_singleton rfl]
    exact decide_eq_true rfl
  · change (choice [.concat (.anchor a) (ofParts (s :: rs))]).startsAt .forward a = true
    rw [choice_singleton rfl]
    exact Bool.or_eq_true_iff.mpr (.inl (decide_eq_true rfl))

/-- The pattern in which the anchor has been read. -/
def behindAnchor : Group where
  items := [.expression ⟨.anchor .startOfText, 0⟩]

/-- What is in the group behind the anchor is read behind the anchor. -/
theorem inside_push_behindAnchor (part : Nested) :
    (behindAnchor.push part).inside.regex =
      choice [sequence [.anchor .startOfText, part.regex]] :=
  rfl

/-- A pattern that is one by itself is read as a whole between `^(?:` and `)`. -/
theorem startsAt_of_read {text : List Char} {r : Regex} (hown : (read text).isSome)
    (h : read (['^', '(', '?', ':'] ++ text ++ [')']) = some r) :
    r.startsAt .forward .startOfText = true := by
  obtain ⟨own, hown⟩ := Option.isSome_iff_exists.mp hown
  obtain ⟨nested, hnested, -⟩ := Option.bind_eq_some_iff.mp hown
  obtain ⟨whole, hwhole, h⟩ := Option.bind_eq_some_iff.mp h
  have hlength : (['^', '(', '?', ':'] ++ text ++ [')']).length + 1 = text.length + 4 + 2 := by
    simp
  -- behind the colon, the text is read in a group that follows the anchor
  have hinside : PatternState.readAll (text.length + 4)
      (PatternState.within (behindAnchor, {}) { text }) = some whole := by
    rw [hlength] at hwhole
    exact hwhole
  have hlt : text.length + 1 < text.length + 4 := by omega
  obtain ⟨part, hpart⟩ := PatternState.readAll_within (behindAnchor, {}) hlt hnested
  rw [hpart] at hinside
  cases hinside
  simp only at h
  split at h
  · have hr : (behindAnchor.push part).inside.regex = r := Option.some.inj h
    rw [← hr, inside_push_behindAnchor]
    exact startsAt_choice_sequence .startOfText part.regex
  · cases h

end Regex

/-! ## The engine that programs are run with -/

/-- If ways begin at the start of the text only, nothing is skipped in front of a match. -/
theorem Automaton.skipped_of_find? {m : Automaton} (hanchored : m.anchored = true)
    {text : List Char} {found : Found text} (h : m.find? text = some found) :
    found.skipped = [] := by
  obtain ⟨⟨start, stop⟩, hfind, rfl⟩ := Option.map_eq_some_iff.mp h
  change (text.take stop).take start = []
  rw [Automaton.find_start hanchored hfind, List.take_zero]

/-- A pattern that is one by itself is found at the start of a text only, once it is in the
group. -/
theorem skipped_of_compile? {pattern : List Char} (hown : (compile? pattern).isSome)
    {find : (text : List Char) → Option (Found text)}
    (hfind : compile? (Text.anchoredText pattern) = some find) {text : List Char}
    {found : Found text} (h : find text = some found) : found.skipped = [] := by
  obtain ⟨r, hread, rfl⟩ := Option.map_eq_some_iff.mp hfind
  have hstarts := Regex.startsAt_of_read (Option.isSome_map.symm.trans hown) hread
  exact Automaton.skipped_of_find? hstarts h

end Parsing.Pattern
