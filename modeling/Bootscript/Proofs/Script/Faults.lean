import Bootscript.Proofs.Script.Reading

/-! What is wrong with a file, told from the places of its markers: the first section that
is opened and not closed by the next end marker decides. -/
namespace Bootscript.Script

def openAfter : Option Text → Line → Option Text
  | none, line => Marker.start? line
  | some name, line => if (Marker.finish? line).isSome then none else some name

def openBehind (lines : List Line) : Option Text := lines.foldl openAfter none

/-- Outside of sections, the line at `i` is a start marker. -/
structure Opens (lines : List Line) (i : Nat) (name : Text) : Prop where
  outside : openBehind (lines.take i) = none
  marker : lines[i]?.bind Marker.start? = some name

structure EndsAt (lines : List Line) (i j : Nat) (found : Text) : Prop where
  later : i < j
  marker : lines[j]?.bind Marker.finish? = some (found, 7)
  first : ∀ k, i < k → k < j → lines[k]?.bind Marker.finish? = none

def Closes (lines : List Line) (i : Nat) (name : Text) : Prop := ∃ j, EndsAt lines i j name

/-- The reason to refuse a file, which lies in the first section that is not closed. Lines
are counted from one. -/
inductive IsFault (lines : List Line) : Malformed → Prop where
  | mismatch {i j : Nat} {name found : Text} (opens : Opens lines i name)
      (before : ∀ k < i, ∀ other, Opens lines k other → Closes lines k other)
      (ends : EndsAt lines i j found) (differs : found ≠ name) :
      IsFault lines (.mismatch (j + 1) 7 name found)
  | unterminated {i : Nat} {name : Text} (opens : Opens lines i name)
      (before : ∀ k < i, ∀ other, Opens lines k other → Closes lines k other)
      (endless : ∀ j found, ¬EndsAt lines i j found) :
      IsFault lines (.unterminated name)

section Places

variable {front lines : List Line} {i j : Nat} {name found : Text}

theorem Opens.lt (opens : Opens lines i name) : i < lines.length := by
  by_contra beyond
  have marker := opens.marker
  rw [List.getElem?_eq_none (Nat.le_of_not_lt beyond)] at marker
  cases marker

theorem EndsAt.lt (ends : EndsAt lines i j found) : j < lines.length := by
  by_contra beyond
  have marker := ends.marker
  rw [List.getElem?_eq_none (Nat.le_of_not_lt beyond)] at marker
  cases marker

theorem EndsAt.unique {j' : Nat} {found' : Text} (ends : EndsAt lines i j found)
    (ends' : EndsAt lines i j' found') : j = j' ∧ found = found' := by
  have same : j = j' := by
    rcases Nat.lt_trichotomy j j' with before | same | after
    · have none := ends'.first j ends.later before
      rw [ends.marker] at none
      cases none
    · exact same
    · have none := ends.first j' ends'.later after
      rw [ends'.marker] at none
      cases none
  subst same
  have marker := ends.marker
  rw [ends'.marker] at marker
  exact ⟨rfl, by cases marker; rfl⟩

theorem opens_append_left (inside : i < front.length) :
    Opens (front ++ lines) i name ↔ Opens front i name := by
  have taken : (front ++ lines).take i = front.take i :=
    List.take_append_of_le_length (Nat.le_of_lt inside)
  have line : (front ++ lines)[i]? = front[i]? := List.getElem?_append_left inside
  constructor
  · rintro ⟨outside, marker⟩
    exact ⟨taken ▸ outside, line ▸ marker⟩
  · rintro ⟨outside, marker⟩
    exact ⟨taken.symm ▸ outside, line.symm ▸ marker⟩

theorem openBehind_append (outside : openBehind front = none) (lines : List Line) :
    openBehind (front ++ lines) = openBehind lines := by
  rw [openBehind, List.foldl_append, ← openBehind, outside, openBehind]

theorem opens_append_right (outside : openBehind front = none) :
    Opens (front ++ lines) (front.length + i) name ↔ Opens lines i name := by
  have taken : openBehind ((front ++ lines).take (front.length + i)) =
      openBehind (lines.take i) := by
    rw [List.take_length_add_append, openBehind_append outside]
  have line : (front ++ lines)[front.length + i]? = lines[i]? := by
    rw [List.getElem?_append_right (Nat.le_add_right ..), Nat.add_sub_cancel_left]
  constructor
  · rintro ⟨outside, marker⟩
    exact ⟨taken ▸ outside, line ▸ marker⟩
  · rintro ⟨outside, marker⟩
    exact ⟨taken.symm ▸ outside, line.symm ▸ marker⟩

theorem EndsAt.append_left (ends : EndsAt front i j found) (lines : List Line) :
    EndsAt (front ++ lines) i j found where
  later := ends.later
  marker := by rw [List.getElem?_append_left ends.lt]; exact ends.marker
  first k after before := by
    rw [List.getElem?_append_left (Nat.lt_trans before ends.lt)]
    exact ends.first k after before

theorem endsAt_append_right : EndsAt (front ++ lines) (front.length + i) (front.length + j) found ↔
    EndsAt lines i j found := by
  have line (k : Nat) : (front ++ lines)[front.length + k]? = lines[k]? := by
    rw [List.getElem?_append_right (Nat.le_add_right ..), Nat.add_sub_cancel_left]
  constructor
  · rintro ⟨later, marker, first⟩
    refine ⟨Nat.lt_of_add_lt_add_left later, line j ▸ marker, fun k after before => ?_⟩
    have none := first (front.length + k) (Nat.add_lt_add_left after _)
      (Nat.add_lt_add_left before _)
    rwa [line] at none
  · rintro ⟨later, marker, first⟩
    refine ⟨Nat.add_lt_add_left later _, (line j).symm ▸ marker, fun k after before => ?_⟩
    obtain ⟨k, rfl⟩ := Nat.exists_eq_add_of_le (show front.length ≤ k by omega)
    rw [line]
    exact first k (Nat.lt_of_add_lt_add_left after) (Nat.lt_of_add_lt_add_left before)

end Places

structure IsWhole (lines : List Line) : Prop where
  outside : openBehind lines = none
  closes : ∀ i name, Opens lines i name → Closes lines i name

theorem IsWhole.closes_append {front lines : List Line} (whole : IsWhole front)
    (closes : ∀ i name, Opens lines i name → Closes lines i name) :
    ∀ i name, Opens (front ++ lines) i name → Closes (front ++ lines) i name := by
  intro i name opens
  by_cases inside : i < front.length
  · obtain ⟨j, ends⟩ := whole.closes i name ((opens_append_left inside).1 opens)
    exact ⟨j, ends.append_left lines⟩
  · obtain ⟨k, rfl⟩ := Nat.exists_eq_add_of_le (Nat.le_of_not_lt inside)
    obtain ⟨j, ends⟩ := closes k name ((opens_append_right whole.outside).1 opens)
    exact ⟨_, endsAt_append_right.2 ends⟩

theorem IsWhole.append {front lines : List Line} (whole : IsWhole front)
    (behind : IsWhole lines) : IsWhole (front ++ lines) where
  outside := by rw [openBehind_append whole.outside]; exact behind.outside
  closes := whole.closes_append behind.closes

theorem isWhole_of_ordinary {lines : List Line}
    (ordinary : ∀ line ∈ lines, Marker.start? line = none) : IsWhole lines where
  outside := by
    rw [openBehind]
    induction lines with
    | nil => rfl
    | cons line lines ih =>
      rw [List.foldl_cons, openAfter, ordinary line (List.mem_cons_self ..)]
      exact ih fun other member => ordinary other (List.mem_cons_of_mem _ member)
  closes i name opens := by
    obtain ⟨line, place, marker⟩ := Option.bind_eq_some_iff.1 opens.marker
    rw [ordinary line (List.mem_of_getElem? place)] at marker
    cases marker

section Sections

variable {s : Section} (delimited : s.IsDelimited)
include delimited

/-- Start markers inside a section open nothing. -/
theorem openBehind_opened {content : List Line} (inside : content <+: s.content) :
    openBehind (s.startMarker :: content) = some s.name := by
  rw [openBehind, List.foldl_cons, openAfter, start?_startMarker delimited]
  have ordinary : ∀ line ∈ content, Marker.finish? line = none :=
    fun line member => delimited.content line (inside.mem member)
  clear inside
  induction content with
  | nil => rfl
  | cons line content ih =>
    rw [List.foldl_cons, openAfter, ordinary line (List.mem_cons_self ..)]
    exact ih fun other member => ordinary other (List.mem_cons_of_mem _ member)

theorem opens_startMarker (rest : List Line) : Opens (s.startMarker :: rest) 0 s.name :=
  ⟨rfl, start?_startMarker delimited⟩

theorem endsAt_endMarker {found : Text} (valid : Marker.isName found) (rest : List Line) :
    EndsAt (s.startMarker :: (s.content ++ Marker.finish found :: rest)) 0
      (s.content.length + 1) found where
  later := Nat.succ_pos _
  marker := by
    rw [List.getElem?_cons_succ, List.getElem?_append_right (Nat.le_refl _), Nat.sub_self]
    exact Marker.finish?_eq_some_iff.2 ⟨valid, rfl, rfl⟩
  first k after before := by
    obtain ⟨k, rfl⟩ := Nat.exists_eq_succ_of_ne_zero (Nat.ne_of_gt after)
    have inside : k < s.content.length := Nat.lt_of_succ_lt_succ before
    rw [List.getElem?_cons_succ, List.getElem?_append_left inside,
      List.getElem?_eq_getElem inside]
    exact delimited.content _ (List.getElem_mem inside)

theorem isWhole_marked : IsWhole (s.startMarker :: (s.content ++ [s.endMarker])) where
  outside := by
    rw [← List.cons_append, openBehind, List.foldl_append, ← openBehind,
      openBehind_opened delimited (List.prefix_refl _), List.foldl_cons, openAfter,
      finish?_endMarker delimited]
    rfl
  closes i name opens := by
    cases i with
    | zero =>
      have marker := opens.marker
      rw [List.getElem?_cons_zero, Option.bind_some, start?_startMarker delimited] at marker
      obtain rfl := Option.some.inj marker
      exact ⟨_, endsAt_endMarker delimited delimited.name []⟩
    | succ i =>
      -- Behind the start marker the section stays open up to the last line.
      have inside : i ≤ s.content.length := by
        have bound := opens.lt
        rw [List.length_cons, List.length_append, List.length_singleton] at bound
        omega
      have outside := opens.outside
      rw [List.take_succ_cons, List.take_append_of_le_length inside,
        openBehind_opened delimited (List.take_prefix ..)] at outside
      cases outside

theorem isWhole_lines : IsWhole s.lines := by
  have parts : s.lines = s.leading ++ s.startMarker :: (s.content ++ [s.endMarker]) := by
    rw [Section.lines, List.append_assoc, List.cons_append]
  rw [parts]
  exact (isWhole_of_ordinary delimited.leading).append (isWhole_marked delimited)

end Sections

theorem isWhole_flatMap {sections : List Section} (delimited : ∀ s ∈ sections, s.IsDelimited) :
    IsWhole (sections.flatMap Section.lines) := by
  induction sections with
  | nil => exact isWhole_of_ordinary nofun
  | cons s sections ih =>
    rw [List.flatMap_cons]
    exact (isWhole_lines (delimited s (List.mem_cons_self ..))).append
      (ih fun other member => delimited other (List.mem_cons_of_mem _ member))

section Faults

variable {front lines : List Line} {name : Text}

theorem EndsAt.not_closes {i j : Nat} {found : Text} (ends : EndsAt lines i j found)
    (differs : found ≠ name) : ¬Closes lines i name := by
  rintro ⟨j', ends'⟩
  exact differs (ends.unique ends').2

/-- Only one place can be the first at which a section is not closed. -/
theorem open_unique {i i' : Nat} {name' : Text}
    (opens : Opens lines i name) (unclosed : ¬Closes lines i name)
    (before : ∀ k < i, ∀ other, Opens lines k other → Closes lines k other)
    (opens' : Opens lines i' name') (unclosed' : ¬Closes lines i' name')
    (before' : ∀ k < i', ∀ other, Opens lines k other → Closes lines k other) :
    i = i' ∧ name = name' := by
  have same : i = i' := by
    rcases Nat.lt_trichotomy i i' with earlier | same | later
    · exact absurd (before' i earlier name opens) unclosed
    · exact same
    · exact absurd (before i' later name' opens') unclosed'
  subst same
  have marker := opens.marker
  rw [opens'.marker] at marker
  exact ⟨rfl, (Option.some.inj marker).symm⟩

theorem IsFault.unique {reason other : Malformed} (fault : IsFault lines reason)
    (fault' : IsFault lines other) : reason = other := by
  cases fault with
  | mismatch opens before ends differs =>
    cases fault' with
    | mismatch opens' before' ends' differs' =>
      obtain ⟨rfl, rfl⟩ := open_unique opens (ends.not_closes differs) before opens'
        (ends'.not_closes differs') before'
      obtain ⟨rfl, rfl⟩ := ends.unique ends'
      rfl
    | unterminated opens' before' endless =>
      obtain ⟨rfl, rfl⟩ := open_unique opens (ends.not_closes differs) before opens'
        (fun closes => closes.elim fun j => endless j _) before'
      exact absurd ends (endless _ _)
  | unterminated opens before endless =>
    cases fault' with
    | mismatch opens' before' ends differs =>
      obtain ⟨rfl, rfl⟩ := open_unique opens (fun closes => closes.elim fun j => endless j _)
        before opens' (ends.not_closes differs) before'
      exact absurd ends (endless _ _)
    | unterminated opens' before' endless' =>
      obtain ⟨rfl, rfl⟩ := open_unique opens (fun closes => closes.elim fun j => endless j _)
        before opens' (fun closes => closes.elim fun j => endless' j _) before'
      rfl

theorem IsFault.not_closes {reason : Malformed} (fault : IsFault lines reason) :
    ¬∀ i name, Opens lines i name → Closes lines i name := by
  intro closes
  cases fault with
  | mismatch opens _ ends differs => exact ends.not_closes differs (closes _ _ opens)
  | unterminated opens _ endless =>
    obtain ⟨j, ends⟩ := closes _ _ opens
    exact endless j _ ends

theorem IsWhole.before (whole : IsWhole front) (lines : List Line) :
    ∀ k < front.length, ∀ other,
      Opens (front ++ lines) k other → Closes (front ++ lines) k other := by
  intro k inside other opens
  obtain ⟨j, ends⟩ := whole.closes k other ((opens_append_left inside).1 opens)
  exact ⟨j, ends.append_left lines⟩

variable {s : Section} (delimited : s.IsDelimited)
include delimited

theorem isFault_mismatch (whole : IsWhole front) {found : Text} (valid : Marker.isName found)
    (differs : found ≠ s.name) (rest : List Line) :
    IsFault (front ++ (s.leading ++ s.startMarker :: s.content ++ Marker.finish found :: rest))
      (.mismatch (front.length + s.leading.length + s.content.length + 2) 7 s.name found) := by
  have before := whole.append (isWhole_of_ordinary delimited.leading)
  rw [List.append_assoc, ← List.append_assoc, List.cons_append, ← List.length_append]
  exact .mismatch ((opens_append_right before.outside).2 (opens_startMarker delimited _))
    (before.before _) (endsAt_append_right.2 (endsAt_endMarker delimited valid rest)) differs

theorem isFault_unterminated (whole : IsWhole front) :
    IsFault (front ++ (s.leading ++ s.startMarker :: s.content)) (.unterminated s.name) := by
  have before := whole.append (isWhole_of_ordinary delimited.leading)
  rw [← List.append_assoc]
  apply IsFault.unterminated
    ((opens_append_right before.outside).2 (opens_startMarker delimited _)) (before.before _)
  intro j found ends
  obtain ⟨k, rfl⟩ := Nat.exists_eq_add_of_lt ends.later
  have marker := (endsAt_append_right.1 (Nat.add_assoc .. ▸ ends)).marker
  rw [List.getElem?_cons_succ] at marker
  obtain ⟨line, place, marker⟩ := Option.bind_eq_some_iff.1 marker
  rw [delimited.content line (List.mem_of_getElem? place)] at marker
  cases marker

end Faults

/-- What reading says of lines, of which all are read if `complete`. Behind the others
stands one that is not UTF-8. -/
inductive Verdict (lines : List Line) : Bool → Except Malformed Script → Prop where
  | script {s : Script} (closes : ∀ i name, Opens lines i name → Closes lines i name) :
      Verdict lines true (.ok s)
  | mismatch {complete : Bool} {line column : Nat} {expected found : Text}
      (fault : IsFault lines (.mismatch line column expected found)) :
      Verdict lines complete (.error (.mismatch line column expected found))
  | unterminated {name : Text} (fault : IsFault lines (.unterminated name)) :
      Verdict lines true (.error (.unterminated name))
  | undecodable (others : ∀ reason, IsFault lines reason → ∃ name, reason = .unterminated name) :
      Verdict lines false (.error .undecodable)

section Verdict

def IsCut (beyond : List (Option Line)) : Prop := ∀ line, beyond.head? ≠ some (some line)

theorem isCut_nil : IsCut [] := by
  intro line first
  cases first

theorem isCut_none (after : List (Option Line)) : IsCut (none :: after) := by
  intro line first
  cases first

/-- Lines that are read up to some place go on behind a part of them. -/
theorem exists_append_of_map_some {lines front : List Line} {beyond rest : List (Option Line)}
    (cut : IsCut beyond)
    (same : lines.map some ++ beyond = front.map some ++ rest) :
    ∃ behind, lines = front ++ behind ∧ rest = behind.map some ++ beyond := by
  induction front generalizing lines with
  | nil => exact ⟨lines, rfl, same.symm⟩
  | cons line front ih =>
    cases lines with
    | nil =>
      rw [List.map_nil, List.nil_append] at same
      exact absurd (by rw [same]; rfl) (cut line)
    | cons first lines =>
      obtain ⟨rfl, tail⟩ : first = line ∧ lines.map some ++ beyond = front.map some ++ rest := by
        simpa using same
      obtain ⟨behind, rfl, eq⟩ := ih tail
      exact ⟨behind, rfl, eq⟩

theorem eq_of_map_some {lines front : List Line} {beyond rest : List (Option Line)}
    (cut : IsCut beyond)
    (cut' : IsCut rest)
    (same : lines.map some ++ beyond = front.map some ++ rest) : lines = front ∧ beyond = rest := by
  obtain ⟨behind, rfl, eq⟩ := exists_append_of_map_some cut same
  cases behind with
  | nil => exact ⟨List.append_nil _, eq.symm⟩
  | cons line behind => exact absurd (by rw [eq]; rfl) (cut' line)

theorem isWhole_opening {canonical : Bool} {opening : List Line} {rest : List (Option Line)}
    (opens : IsOpening canonical opening rest) : IsWhole opening := by
  apply isWhole_of_ordinary
  intro line member
  cases opens with
  | missing _ => cases member
  | directive recognized =>
    obtain rfl := List.mem_singleton.1 member
    rw [isDirective, Bool.and_eq_true, List.isPrefixOf_iff_prefix] at recognized
    obtain ⟨⟨tail, rfl⟩, _⟩ := recognized
    apply Marker.start?_of_not_opening
    rintro ⟨other, absurd⟩
    cases absurd

theorem verdict_of_ends {front behind : List Line} {beyond : List (Option Line)}
    {outcome : Except Malformed (List Line)} (whole : IsWhole front)
    (cut : IsCut beyond)
    (ends : Ends front.length (behind.map some ++ beyond) outcome) (make : List Line → Script) :
    Verdict (front ++ behind) beyond.isEmpty (outcome.map make) := by
  -- What is read of the lines ends where they are cut, unless reading stopped before.
  generalize same : behind.map some ++ beyond = rest at ends
  cases ends with
  | body ordinary =>
    obtain ⟨rfl, rfl⟩ := eq_of_map_some cut isCut_nil (same.trans (List.append_nil _).symm)
    exact .script (whole.closes_append (isWhole_of_ordinary ordinary).closes)
  | undecodable ordinary =>
    obtain ⟨rfl, rfl⟩ := eq_of_map_some cut (isCut_none _) same
    refine .undecodable fun reason fault => ?_
    exact absurd (whole.closes_append (isWhole_of_ordinary ordinary).closes) fault.not_closes
  | unterminated inside =>
    obtain ⟨rfl, rfl⟩ := eq_of_map_some cut isCut_nil (same.trans (List.append_nil _).symm)
    exact .unterminated (isFault_unterminated inside whole)
  | undecodableInside inside =>
    obtain ⟨rfl, rfl⟩ := eq_of_map_some cut (isCut_none _) same
    exact .undecodable fun reason fault => ⟨_, fault.unique (isFault_unterminated inside whole)⟩
  | @mismatch opened found after inside valid differs =>
    obtain ⟨closing, rfl, next⟩ := exists_append_of_map_some cut same
    cases closing with
    | nil => exact absurd (congrArg List.head? next.symm) (cut (Marker.finish found))
    | cons line closing =>
      obtain rfl : Marker.finish found = line := by
        simpa using congrArg List.head? next
      exact .mismatch (isFault_mismatch inside whole valid differs closing)

theorem parse_verdict (canonical : Bool) {data : Bytes} {lines : List Line}
    {beyond : List (Option Line)} (split : Lines.ofBytes data = lines.map some ++ beyond)
    (cut : IsCut beyond) :
    Verdict lines beyond.isEmpty (parse canonical data) := by
  obtain ⟨reading⟩ := nonempty_reading canonical (Lines.ofBytes data)
  rw [parse_eq reading]
  obtain ⟨opening, sections, rest, outcome, parts, opens, delimited, ends⟩ := reading
  have whole : IsWhole (opening ++ sections.flatMap Section.lines) :=
    (isWhole_opening opens).append (isWhole_flatMap delimited)
  have same := parts
  rw [split, ← List.append_assoc, ← List.map_append] at same
  obtain ⟨behind, rfl, rfl⟩ := exists_append_of_map_some cut same
  rw [← List.length_append] at ends
  exact verdict_of_ends whole cut ends _

theorem verdict_of_decode (canonical : Bool) {data : Bytes} {text : Text}
    (decoded : Text.decode? data = some text) :
    Verdict (Lines.ofText text) true (parse canonical data) := by
  obtain rfl := Text.decode?_eq_some_iff.1 decoded
  by_cases empty : text = []
  · -- Only the line that the empty file does not have is counted here.
    subst empty
    have ordinary : ∀ line ∈ Lines.ofText [], Marker.start? line = none := by decide
    exact .script (isWhole_of_ordinary ordinary).closes
  · have split := Lines.ofBytes_encode text
    rw [if_neg empty, ← List.append_nil (List.map ..)] at split
    exact parse_verdict canonical split isCut_nil

variable {lines : List Line} {outcome : Except Malformed Script}

theorem Verdict.isOk_iff (verdict : Verdict lines true outcome) :
    (∃ s, outcome = .ok s) ↔ ∀ i name, Opens lines i name → Closes lines i name := by
  cases verdict with
  | script closes => exact ⟨fun _ => closes, fun _ => ⟨_, rfl⟩⟩
  | mismatch fault => exact ⟨nofun, fun closes => absurd closes fault.not_closes⟩
  | unterminated fault => exact ⟨nofun, fun closes => absurd closes fault.not_closes⟩

theorem Verdict.eq_error_iff (verdict : Verdict lines true outcome) (reason : Malformed) :
    outcome = .error reason ↔ IsFault lines reason := by
  cases verdict with
  | script closes => exact ⟨nofun, fun fault => absurd closes fault.not_closes⟩
  | mismatch fault =>
    constructor
    · rintro ⟨⟩
      exact fault
    · intro other
      rw [fault.unique other]
  | unterminated fault =>
    constructor
    · rintro ⟨⟩
      exact fault
    · intro other
      rw [fault.unique other]

theorem Verdict.eq_undecodable_iff (verdict : Verdict lines false outcome) :
    outcome = .error .undecodable ↔ ∀ line column expected found,
      ¬IsFault lines (.mismatch line column expected found) := by
  cases verdict with
  | mismatch fault => exact ⟨nofun, fun others => absurd fault (others _ _ _ _)⟩
  | undecodable others =>
    refine ⟨fun _ line column expected found fault => ?_, fun _ => rfl⟩
    obtain ⟨_, absurd⟩ := others _ fault
    cases absurd

theorem Verdict.eq_mismatch_iff (verdict : Verdict lines false outcome)
    (line column : Nat) (expected found : Text) :
    outcome = .error (.mismatch line column expected found) ↔
      IsFault lines (.mismatch line column expected found) := by
  cases verdict with
  | mismatch fault =>
    constructor
    · rintro ⟨⟩
      exact fault
    · intro other
      rw [fault.unique other]
  | undecodable others =>
    refine ⟨nofun, fun fault => ?_⟩
    obtain ⟨_, absurd⟩ := others _ fault
    cases absurd

end Verdict

/-- A file is refused for the first section that the next end marker does not close. A
line that is not UTF-8 is met only if no end marker before it is wrong. -/
theorem parse_faults (canonical : Bool) (data : Bytes) :
    match Text.decode? data with
    | some text =>
      ((∃ s, parse canonical data = .ok s) ↔
        ∀ i name, Opens (Lines.ofText text) i name → Closes (Lines.ofText text) i name) ∧
      ∀ reason, parse canonical data = .error reason ↔ IsFault (Lines.ofText text) reason
    | none =>
      (parse canonical data = .error .undecodable ↔ ∀ line column expected found,
        ¬IsFault (Lines.readable data) (.mismatch line column expected found)) ∧
      ∀ line column expected found,
        parse canonical data = .error (.mismatch line column expected found) ↔
          IsFault (Lines.readable data) (.mismatch line column expected found) := by
  cases decoded : Text.decode? data with
  | none =>
    obtain ⟨after, split⟩ := Lines.ofBytes_eq_readable decoded
    have verdict := parse_verdict canonical split (isCut_none after)
    exact ⟨verdict.eq_undecodable_iff, verdict.eq_mismatch_iff⟩
  | some text =>
    have verdict := verdict_of_decode canonical decoded
    exact ⟨verdict.isOk_iff, verdict.eq_error_iff⟩

example : parse true (Text.encode "# <-- b\n# a -->\n# c -->\n# <-- b".toList) =
    .error (.mismatch 4 7 ['a'] ['b']) := rfl

end Bootscript.Script
