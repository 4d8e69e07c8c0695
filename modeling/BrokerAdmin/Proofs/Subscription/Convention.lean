import BrokerAdmin.Proofs.Subscription.Name
import Mathlib.Algebra.Ring.Parity
import Mathlib.Data.List.Basic

/-!
# The convention for names of queues, position by position

Which dots of a name separate and which backslashes escape can be told without reading the name from its
front: it depends on the run of backslashes right before the character, and there only on whether the
length of the run is even. `StandsAlone` says that it is, so that nothing in front of the character
concerns it. Two such dots are one too many, and a run of odd length at the end escapes nothing.

The reader goes through a name once and takes two characters at a time where it finds a backslash. What
connects it with positions is that a text may be cut wherever the run at the end of its front is even:
separators and unescaped characters are then those of the front and those of the rest.
-/

namespace BrokerAdmin.Subscription

/-! ### Runs of backslashes -/

/-- The length of the run of backslashes at the end of a text. -/
def endingRun (chars : List Char) : Nat :=
  (chars.reverse.takeWhile fun c => c = '\\').length

/-- A character at a position, with a run of backslashes of even length right before it. -/
def StandsAlone (chars : List Char) (i : Nat) (c : Char) : Prop :=
  chars[i]? = some c ∧ Even (endingRun (chars.take i))

/-- Whether a character stands alone can be decided. -/
instance (chars : List Char) (i : Nat) (c : Char) : Decidable (StandsAlone chars i c) :=
  inferInstanceAs (Decidable (_ ∧ _))

/-- The positions of the separators in a text. -/
def separators (chars : List Char) : List Nat :=
  (List.range chars.length).filter fun i => StandsAlone chars i '.'

/-- A text without the backslashes that escape. -/
def unescaped (chars : List Char) : List Char :=
  (List.range chars.length).filterMap fun i => if StandsAlone chars i '\\' then none else chars[i]?

/-- A backslash at the end makes the run longer by one. -/
theorem endingRun_concat_backslash (chars : List Char) :
    endingRun (chars ++ ['\\']) = endingRun chars + 1 := by
  simp [endingRun]

/-- Behind a run of even length the next run counts as if nothing stood in front of it. -/
theorem even_endingRun_append {front : List Char} (hfront : Even (endingRun front)) (rest : List Char) :
    Even (endingRun (front ++ rest)) ↔ Even (endingRun rest) := by
  unfold endingRun at *
  rw [List.reverse_append, List.takeWhile_append]
  split
  next hall =>
    -- the rest consists of backslashes, and the run goes on into the front
    rw [List.length_append, hall, List.length_reverse, Nat.even_add]
    exact iff_true_right hfront
  next => exact Iff.rfl

/-! ### Cutting a text -/

/-- In the front of a text each character stands as it does there without the rest. -/
theorem standsAlone_append_left {front : List Char} (rest : List Char) {i : Nat} (hi : i < front.length)
    (c : Char) : StandsAlone (front ++ rest) i c ↔ StandsAlone front i c := by
  rw [StandsAlone, StandsAlone, List.getElem?_append_left hi, List.take_append_of_le_length (Nat.le_of_lt hi)]

/-- Behind a run of even length each character stands as it does without the front. -/
theorem standsAlone_append_right {front : List Char} (hfront : Even (endingRun front))
    (rest : List Char) (i : Nat) (c : Char) :
    StandsAlone (front ++ rest) (front.length + i) c ↔ StandsAlone rest i c := by
  rw [StandsAlone, StandsAlone, List.getElem?_append_right (Nat.le_add_right _ _),
    Nat.add_sub_cancel_left, List.take_length_add_append, even_endingRun_append hfront]

/-- The separators of a text that is cut behind a run of even length. -/
theorem separators_append {front : List Char} (hfront : Even (endingRun front)) (rest : List Char) :
    separators (front ++ rest) = separators front ++ (separators rest).map (front.length + ·) := by
  unfold separators
  rw [List.length_append, List.range_add, List.filter_append, List.filter_map]
  congr 1
  · refine List.filter_congr fun i hi => ?_
    simp only [standsAlone_append_left rest (List.mem_range.mp hi)]
  · congr 2
    funext i
    simp only [Function.comp_apply, standsAlone_append_right hfront]

/-- The unescaped characters of a text that is cut behind a run of even length. -/
theorem unescaped_append {front : List Char} (hfront : Even (endingRun front)) (rest : List Char) :
    unescaped (front ++ rest) = unescaped front ++ unescaped rest := by
  unfold unescaped
  rw [List.length_append, List.range_add, List.filterMap_append, List.filterMap_map]
  congr 1
  · refine List.filterMap_congr fun i hi => ?_
    have hi := List.mem_range.mp hi
    simp only [standsAlone_append_left rest hi, List.getElem?_append_left hi]
  · congr 1
    funext i
    simp only [Function.comp_apply, standsAlone_append_right hfront,
      List.getElem?_append_right (Nat.le_add_right _ _), Nat.add_sub_cancel_left]

/-- Behind an escaped character no run of odd length is left. -/
theorem even_endingRun_escaped (c : Char) : Even (endingRun ['\\', c]) := by
  by_cases hc : c = '\\' <;> simp [endingRun, hc]

/-! ### Parts -/

/-- What stands for a part has no separator, ends in a run of even length, and is the part but for the
backslashes that escape. -/
theorem Spells.convention {chars part : List Char} (h : Spells chars part) :
    separators chars = [] ∧ Even (endingRun chars) ∧ unescaped chars = part := by
  -- a plain character and an escaped one leave no run behind that concerns the rest
  have hcut : ∀ (front : List Char) {rest part : List Char} {c : Char}, separators front = [] →
      Even (endingRun front) → unescaped front = [c] →
        separators rest = [] ∧ Even (endingRun rest) ∧ unescaped rest = part →
          separators (front ++ rest) = [] ∧ Even (endingRun (front ++ rest)) ∧
            unescaped (front ++ rest) = c :: part := by
    rintro front rest part c hseparators heven hunescaped ⟨hnone, hrest, rfl⟩
    rw [separators_append heven, unescaped_append heven, hseparators, hnone, hunescaped]
    exact ⟨rfl, (even_endingRun_append heven rest).mpr hrest, rfl⟩
  induction h with
  | nil => decide
  | @plain c chars part hescape hseparator _ ih =>
    refine hcut [c] ?_ ?_ ?_ ih
    · simp [separators, StandsAlone, hseparator]
    · simp [endingRun, hescape]
    · simp [unescaped, StandsAlone, hescape]
  | @escaped c chars part _ ih =>
    refine hcut ['\\', c] ?_ ?_ ?_ ih
    · simp [separators, StandsAlone, endingRun, List.range_succ]
    · exact even_endingRun_escaped c
    · simp [unescaped, StandsAlone, endingRun, List.range_succ]

/-- Every text begins with something that stands for a part; then comes the end, a backslash at the end or a
separator. -/
theorem exists_spells (chars : List Char) :
    ∃ front part rest, Spells front part ∧ chars = front ++ rest ∧
      (rest = [] ∨ rest = ['\\'] ∨ ∃ more, rest = '.' :: more) := by
  fun_induction component chars with
  | case1 => exact ⟨[], [], [], .nil, rfl, Or.inl rfl⟩
  | case2 => exact ⟨[], [], ['\\'], .nil, rfl, Or.inr (Or.inl rfl)⟩
  | case3 c rest ih =>
    obtain ⟨front, part, rest', hspells, rfl, hrest⟩ := ih
    exact ⟨'\\' :: c :: front, c :: part, rest', .escaped c hspells, rfl, hrest⟩
  | case4 more => exact ⟨[], [], '.' :: more, .nil, rfl, Or.inr (Or.inr ⟨more, rfl⟩)⟩
  | case5 c rest hlast hescape hseparator ih =>
    obtain ⟨front, part, rest', hspells, rfl, hrest⟩ := ih
    have hplain : c ≠ '\\' := by
      intro hc
      cases hback : front ++ rest' with
      | nil => exact hlast hc hback
      | cons next more => exact hescape next more hc hback
    exact ⟨c :: front, c :: part, rest', .plain hplain hseparator hspells, rfl, hrest⟩

/-! ### The reader -/

/-- What the names of queues consist of, with what is read from each of them. -/
inductive Reads : List Char → Except NameFault (Option (List Char) × List Char) → Prop
  | shared {chars name : List Char} : Spells chars name → Reads chars (.ok (none, name))
  | owned {front rest client name : List Char} : Spells front client → Spells rest name →
      Reads (front ++ '.' :: rest) (.ok (if client.isEmpty then none else some client, name))
  | unfinished {front name : List Char} : Spells front name →
      Reads (front ++ ['\\']) (.error .trailingEscape)
  | ownedUnfinished {front back client name : List Char} : Spells front client → Spells back name →
      Reads (front ++ '.' :: (back ++ ['\\'])) (.error .trailingEscape)
  | crowded {front back client name : List Char} (more : List Char) : Spells front client →
      Spells back name → Reads (front ++ '.' :: (back ++ '.' :: more)) (.error .manySeparators)

/-- Every name is of one of these kinds, and is decomposed accordingly. -/
theorem reads_decomposeChars (chars : List Char) : Reads chars (decomposeChars chars) := by
  obtain ⟨front, part, rest, hfront, rfl, rfl | rfl | ⟨rest, rfl⟩⟩ := exists_spells chars
  · rw [List.append_nil, decomposeChars, hfront.component_eq]
    exact .shared hfront
  · rw [decomposeChars, hfront.component_backslash]
    exact .unfinished hfront
  rw [decomposeChars, hfront.component_separator]
  change Reads _ (component rest >>= _)
  obtain ⟨back, name, rest, hback, rfl, rfl | rfl | ⟨more, rfl⟩⟩ := exists_spells rest
  · rw [List.append_nil, hback.component_eq]
    exact .owned hfront hback
  · rw [hback.component_backslash]
    exact .ownedUnfinished hfront hback
  · rw [hback.component_separator]
    exact .crowded more hfront hback

/-- What the convention tells of a name: the parts in front of the first separator and behind it. There is no
client where nothing stands in front. -/
def described (chars : List Char) : Option (List Char) × List Char :=
  match separators chars with
  | [] => (none, unescaped chars)
  | i :: _ => (if i = 0 then none else some (unescaped (chars.take i)), unescaped (chars.drop (i + 1)))

/-- What the convention makes of a name. -/
def conventional (chars : List Char) : Except NameFault (Option (List Char) × List Char) :=
  if 2 ≤ (separators chars).length then .error .manySeparators
  else if Even (endingRun chars) then .ok (described chars)
  else .error .trailingEscape

/-- The separators of a text that begins with what stands for a part, and a separator. -/
theorem Spells.separators_cons {front part : List Char} (h : Spells front part) (rest : List Char) :
    separators (front ++ '.' :: rest) = front.length :: (separators rest).map (front.length + 1 + ·) := by
  obtain ⟨hnone, heven, -⟩ := h.convention
  have hfirst : separators ('.' :: rest) = 0 :: (separators rest).map (1 + ·) :=
    separators_append (by decide : Even (endingRun ['.'])) rest
  rw [separators_append heven, hnone, hfirst]
  simp [Nat.add_assoc]

/-- The run at the end of a text that begins with what stands for a part, and a separator. -/
theorem Spells.even_endingRun_cons {front part : List Char} (h : Spells front part)
    (rest : List Char) : Even (endingRun (front ++ '.' :: rest)) ↔ Even (endingRun rest) := by
  obtain ⟨-, heven, -⟩ := h.convention
  rw [even_endingRun_append heven]
  exact even_endingRun_append (by decide : Even (endingRun ['.'])) rest

/-- A backslash behind what stands for a part is neither a separator nor escaped. -/
theorem Spells.backslash {front part : List Char} (h : Spells front part) :
    separators (front ++ ['\\']) = [] ∧ ¬ Even (endingRun (front ++ ['\\'])) := by
  obtain ⟨hnone, heven, -⟩ := h.convention
  rw [separators_append heven, even_endingRun_append heven, hnone]
  exact ⟨rfl, by decide⟩

/-- Nothing is spelled by nothing else than nothing. -/
theorem Spells.length_eq_zero_iff {chars part : List Char} (h : Spells chars part) :
    chars.length = 0 ↔ part.isEmpty := by
  cases h <;> simp

/-- A name is read as the convention has it. -/
theorem Reads.eq_conventional {chars : List Char}
    {result : Except NameFault (Option (List Char) × List Char)} (h : Reads chars result) :
    result = conventional chars := by
  unfold conventional described
  cases h with
  | shared hname =>
    obtain ⟨hnone, heven, rfl⟩ := hname.convention
    simp [hnone, heven]
  | owned hclient hname =>
    have hempty := hclient.length_eq_zero_iff
    obtain ⟨-, -, rfl⟩ := hclient.convention
    obtain ⟨hnone, heven, rfl⟩ := hname.convention
    simp [hclient.separators_cons, hclient.even_endingRun_cons, hnone, heven, hempty]
  | unfinished hname =>
    obtain ⟨hnone, hodd⟩ := hname.backslash
    simp [hnone, hodd]
  | ownedUnfinished hclient hname =>
    obtain ⟨hnone, hodd⟩ := hname.backslash
    simp [hclient.separators_cons, hclient.even_endingRun_cons, hnone, hodd]
  | crowded more hclient hname => simp [hclient.separators_cons, hname.separators_cons]

/-- A name is decomposed as the convention has it. -/
theorem decomposeChars_eq (chars : List Char) : decomposeChars chars = conventional chars :=
  (reads_decomposeChars chars).eq_conventional

/-- Decomposing a name fails, and the error gives the name and a reason. -/
def FailsFor (queueName reason : String) : Prop :=
  ∃ e, decompose queueName = .error e ∧ e.queueName = queueName ∧ e.fault.reason = reason

/-- A name with two separators or more fails for that reason, and one with at most one separator and a run of
backslashes of odd length at its end for the other. Every other name is decomposed into the parts in front of
its separator and behind it, without the backslashes that escape; there is no client if there is no separator
or nothing in front of it. -/
theorem decompose_convention (queueName : String) :
    (FailsFor queueName "more than one separator" ↔ 2 ≤ (separators queueName.toList).length) ∧
    (FailsFor queueName "trailing escape character" ↔
      (separators queueName.toList).length ≤ 1 ∧ Odd (endingRun queueName.toList)) ∧
    ∀ client name, decompose queueName = .ok (client, name) ↔
      ((separators queueName.toList).length ≤ 1 ∧ Even (endingRun queueName.toList)) ∧
        client = (described queueName.toList).1.map String.ofList ∧
        name = String.ofList (described queueName.toList).2 := by
  unfold FailsFor decompose
  rw [decomposeChars_eq, conventional, ← Nat.not_even_iff_odd]
  by_cases hmany : 2 ≤ (separators queueName.toList).length
  · rw [if_pos hmany]
    have hfew : ¬ (separators queueName.toList).length ≤ 1 := by omega
    simp [hmany, hfew, NameFault.reason]
  · rw [if_neg hmany]
    have hfew : (separators queueName.toList).length ≤ 1 := by omega
    by_cases heven : Even (endingRun queueName.toList)
    · rw [if_pos heven]
      simp [hmany, hfew, heven, eq_comm]
    · rw [if_neg heven]
      simp [hmany, hfew, heven, NameFault.reason]

example : decompose "a\\\\.b\\.c" = .ok (some "a\\", "b.c") := by decide

end BrokerAdmin.Subscription
