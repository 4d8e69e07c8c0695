import BrokerAdmin.Json.Printer
import BrokerAdmin.Json.Reader
import BrokerAdmin.Proofs.Filter.Scanning
import Mathlib.Data.List.Basic
import Mathlib.Data.List.TakeDrop

/-!
# Reading numbers off the front of a text

A number is read up to what cannot go on with it. So a whole number of 64 bits is read back as it was
written, whatever stands behind it. A number in binary floating point need not be: the reader rounds in
several steps. But what it is read as does not depend on what stands behind it, since reading stops at the
same place and what has been read tells the value.
-/

namespace BrokerAdmin.Json

/-- What may go on with a number. -/
def continuesNumber (c : Char) : Bool :=
  c.isDigit || c == '.' || c == 'e' || c == 'E'

/-- What cannot go on with a number is no digit. -/
theorem any_isDigit_of_stop {chars : List Char} (h : chars.head?.any continuesNumber = false) :
    chars.head?.any Char.isDigit = false := by
  cases chars with
  | nil => rfl
  | cons c rest =>
    have hc : continuesNumber c = false := by simpa using h
    simp only [continuesNumber, Bool.or_eq_false_iff] at hc
    simpa using hc.1.1.1

/-- What cannot go on with a number is no fraction. -/
theorem fractionPart?_of_stop {chars : List Char} (h : chars.head?.any continuesNumber = false) :
    fractionPart? chars = some ([], chars) := by
  unfold fractionPart?
  split
  next => simp [continuesNumber] at h
  next => rfl

/-- What cannot go on with a number is no exponent. -/
theorem exponentPart?_of_stop {chars : List Char} (h : chars.head?.any continuesNumber = false) :
    exponentPart? chars = some (none, chars) := by
  unfold exponentPart?
  split
  next => simp [continuesNumber] at h
  next => simp [continuesNumber] at h
  next => rfl

/-! ### Whole numbers -/

/-- The digits of a number are digits. -/
theorem isDigit_of_mem_toDigits (n : Nat) : ∀ c ∈ Nat.toDigits 10 n, c.isDigit = true := fun _ hc =>
  Nat.isDigit_of_mem_toDigits (by decide) (by decide) hc

/-- A number has a first digit. -/
theorem exists_toDigits_eq_cons (n : Nat) :
    ∃ first rest, Nat.toDigits 10 n = first :: rest ∧ first.isDigit = true := by
  cases hdigits : Nat.toDigits 10 n with
  | nil => exact absurd hdigits Nat.toDigits_ne_nil
  | cons first rest =>
    have hmem : first ∈ Nat.toDigits 10 n := by simp [hdigits]
    exact ⟨first, rest, rfl, isDigit_of_mem_toDigits n first hmem⟩

/-- The digits of a number begin with a zero only if it has no other digit. -/
theorem head?_toDigits_ne {n : Nat} (hn : 0 < n) : (Nat.toDigits 10 n).head? ≠ some '0' := by
  induction n using Nat.strongRecOn with
  | _ n ih =>
    rw [Nat.toDigits_eq_if (by decide)]
    split
    next hsmall =>
      have hdigit : ∀ digit < 10, 0 < digit → Nat.digitChar digit ≠ '0' := by decide
      simpa using hdigit n hsmall hn
    next hlarge =>
      rw [List.head?_append_of_ne_nil _ Nat.toDigits_ne_nil]
      exact ih (n / 10) (by omega) (by omega)

/-- The whole numbers that are read exactly. -/
def FitsBits (n : Int) : Prop :=
  -2 ^ 63 ≤ n ∧ n < 2 ^ 64

/-- The digits of a whole number are read as the number. -/
theorem whole?_toDigits {n : Int} (hn : FitsBits n) :
    whole? (decide (n < 0)) (Nat.toDigits 10 n.natAbs) = some (.int n) := by
  have hdigits : Text.digitsValue 0 (Nat.toDigits 10 n.natAbs) = n.natAbs :=
    Nat.ofDigitChars_toDigits (by decide) (by decide)
  obtain ⟨hleast, hgreatest⟩ := hn
  by_cases hnegative : n < 0
  · have hsize : 0 < n.natAbs ∧ n.natAbs ≤ 2 ^ 63 := by omega
    have hvalue : -(n.natAbs : Int) = n := by omega
    rw [whole?, decide_eq_true hnegative, hdigits]
    simp only [if_true, if_pos hsize, hvalue]
  · have hsize : n.natAbs < 2 ^ 64 := by omega
    have hvalue : (n.natAbs : Int) = n := by omega
    rw [whole?, decide_eq_false hnegative, hdigits]
    simp only [Bool.false_eq_true, if_false, if_pos hsize, hvalue]

/-- The digits of a number are well formed: there is one, and none follows a leading zero. -/
theorem toDigits_wellFormed (n : Nat) : ((Nat.toDigits 10 n).isEmpty ||
    ((Nat.toDigits 10 n).length != 1 && (Nat.toDigits 10 n).head? == some '0')) = false := by
  rw [Bool.or_eq_false_iff, Bool.and_eq_false_iff]
  refine ⟨List.isEmpty_eq_false_iff.mpr Nat.toDigits_ne_nil, ?_⟩
  rcases Nat.eq_zero_or_pos n with rfl | hn
  · exact Or.inl rfl
  · exact Or.inr (by simpa using head?_toDigits_ne hn)

/-- A number behind its sign is read up to what cannot go on with it. -/
theorem number?_toDigits {n : Int} (hn : FitsBits n) {rest : List Char}
    (hrest : rest.head?.any continuesNumber = false) :
    number? false (decide (n < 0)) (Nat.toDigits 10 n.natAbs ++ rest) = some (.int n, rest) := by
  have hdigit := isDigit_of_mem_toDigits n.natAbs
  have hstop := any_isDigit_of_stop hrest
  have hspan : (Nat.toDigits 10 n.natAbs ++ rest).span Char.isDigit =
      (Nat.toDigits 10 n.natAbs, rest) := by
    rw [List.span_eq_takeWhile_dropWhile, Filter.takeWhile_append_of_stop hdigit hstop,
      Filter.dropWhile_append_of_stop hdigit hstop]
  rw [number?, hspan]
  simp only [toDigits_wellFormed, fractionPart?_of_stop hrest, Option.bind_eq_bind, Option.bind_some,
    exponentPart?_of_stop hrest, whole?_toDigits hn]
  rfl

/-! ### Numbers in binary floating point -/

/-- A reader that takes a part off the front of a text, and takes the same part when the text is continued
with what cannot go on with a number. -/
def TakesFront {α : Type} (read : List Char → Option (α × List Char)) : Prop :=
  ∀ (chars : List Char) (a : α) (rest : List Char), read chars = some (a, rest) →
    (∃ front, chars = front ++ rest) ∧
      ∀ more : List Char, more.head?.any continuesNumber = false →
        read (chars ++ more) = some (a, rest ++ more)

/-- Digits are taken off the front. -/
theorem takesFront_digits : TakesFront fun chars => some (chars.span Char.isDigit) := by
  intro chars digits rest h
  rw [Option.some.injEq, List.span_eq_takeWhile_dropWhile] at h
  obtain ⟨rfl, rfl⟩ := Prod.mk.inj h
  have hsplit : chars = chars.takeWhile Char.isDigit ++ chars.dropWhile Char.isDigit :=
    List.takeWhile_append_dropWhile.symm
  refine ⟨⟨_, hsplit⟩, fun more hmore => ?_⟩
  have hdigits : ∀ c ∈ chars.takeWhile Char.isDigit, c.isDigit = true := fun _ => List.mem_takeWhile_imp
  have hstop : (chars.dropWhile Char.isDigit ++ more).head?.any Char.isDigit = false := by
    have hrest := Filter.head?_dropWhile_any Char.isDigit chars
    cases hcases : chars.dropWhile Char.isDigit with
    | nil => exact any_isDigit_of_stop hmore
    | cons c rest => rwa [hcases] at hrest
  have hcontinued : chars ++ more =
      chars.takeWhile Char.isDigit ++ (chars.dropWhile Char.isDigit ++ more) := by
    rw [← List.append_assoc, ← hsplit]
  dsimp only
  rw [hcontinued, List.span_eq_takeWhile_dropWhile, Filter.takeWhile_append_of_stop hdigits hstop,
    Filter.dropWhile_append_of_stop hdigits hstop]

/-- A value that is told by what has been taken takes nothing more. -/
theorem takesFront_map {α : Type} (value : Option α) : TakesFront fun chars => value.map (·, chars) := by
  intro chars a rest h
  obtain ⟨a, rfl, h⟩ := Option.map_eq_some_iff.mp h
  cases h
  exact ⟨⟨[], rfl⟩, fun more _ => rfl⟩

/-- One part is taken after the other. -/
theorem TakesFront.bind {α β : Type} {read : List Char → Option (α × List Char)}
    {next : α → List Char → Option (β × List Char)} (hread : TakesFront read)
    (hnext : ∀ a, TakesFront (next a)) :
    TakesFront fun chars => (read chars).bind fun (a, rest) => next a rest := by
  intro chars b rest h
  obtain ⟨⟨a, middle⟩, hfirst, hsecond⟩ := Option.bind_eq_some_iff.mp h
  obtain ⟨⟨front, rfl⟩, hfirst⟩ := hread _ _ _ hfirst
  obtain ⟨⟨back, rfl⟩, hsecond⟩ := hnext a _ _ _ hsecond
  refine ⟨⟨front ++ back, by rw [List.append_assoc]⟩, fun more hmore => ?_⟩
  dsimp only
  rw [hfirst more hmore]
  exact hsecond more hmore

/-- A part is refused by what it is, whatever stands behind it. -/
theorem TakesFront.ite {α : Type} {read : List Char → Option (α × List Char)} (hread : TakesFront read)
    (refused : Bool) : TakesFront fun chars => if refused then none else read chars := by
  cases refused with
  | false => exact hread
  | true => exact fun _ _ _ h => nomatch h

/-- The digits behind a point or an exponent mark are taken, at least one. -/
theorem takesFront_required {α : Type} (value : List Char → α) :
    TakesFront fun chars => let (digits, rest) := chars.span Char.isDigit
      if digits.isEmpty then none else some (value digits, rest) :=
  takesFront_digits.bind fun digits => TakesFront.ite (takesFront_map (some (value digits))) digits.isEmpty

/-- A fraction is taken off the front. -/
theorem takesFront_fractionPart? : TakesFront fractionPart? := by
  intro chars digits rest h
  cases chars with
  | nil =>
    cases h
    exact ⟨⟨[], rfl⟩, fun more hmore => fractionPart?_of_stop hmore⟩
  | cons c chars =>
    by_cases hc : c = '.'
    · subst hc
      obtain ⟨⟨front, rfl⟩, hmore⟩ := takesFront_required id _ _ _ h
      exact ⟨⟨'.' :: front, rfl⟩, hmore⟩
    · have hnone (chars : List Char) : fractionPart? (c :: chars) = some ([], c :: chars) := by
        unfold fractionPart?
        split
        next heq => exact absurd (List.cons.inj heq).1 hc
        next => rfl
      rw [hnone] at h
      cases h
      exact ⟨⟨[], rfl⟩, fun more _ => hnone _⟩

/-- A sign is split off likewise when the text goes on. -/
theorem splitSign_append {chars : List Char} (hne : chars ≠ []) (more : List Char) :
    (∃ front, chars = front ++ (Binary64.splitSign chars).2) ∧
      Binary64.splitSign (chars ++ more) =
        ((Binary64.splitSign chars).1, (Binary64.splitSign chars).2 ++ more) := by
  cases chars with
  | nil => contradiction
  | cons c chars =>
    by_cases hminus : c = '-'
    · subst hminus
      exact ⟨⟨['-'], rfl⟩, rfl⟩
    by_cases hplus : c = '+'
    · subst hplus
      exact ⟨⟨['+'], rfl⟩, rfl⟩
    have hnone (chars : List Char) : Binary64.splitSign (c :: chars) = (false, c :: chars) := by
      unfold Binary64.splitSign
      split
      next heq => exact absurd (List.cons.inj heq).1 hminus
      next heq => exact absurd (List.cons.inj heq).1 hplus
      next => rfl
    rw [hnone, List.cons_append, hnone]
    exact ⟨⟨[], rfl⟩, rfl⟩

/-- The digits of an exponent behind its mark and its sign. -/
def exponentDigits? (negative : Bool) (chars : List Char) : Option (Option Int × List Char) :=
  let (digits, rest) := chars.span Char.isDigit
  if digits.isEmpty then none
  else some (some (if negative then -(Text.digitsValue 0 digits : Int) else Text.digitsValue 0 digits), rest)

/-- The digits of an exponent are taken off the front. -/
theorem takesFront_exponentDigits? (negative : Bool) : TakesFront (exponentDigits? negative) :=
  takesFront_required fun digits =>
    some (if negative then -(Text.digitsValue 0 digits : Int) else Text.digitsValue 0 digits)

/-- An exponent is taken off the front. -/
theorem takesFront_exponentPart? : TakesFront exponentPart? := by
  intro chars exponent rest h
  cases chars with
  | nil =>
    cases h
    exact ⟨⟨[], rfl⟩, fun more hmore => exponentPart?_of_stop hmore⟩
  | cons c chars =>
    by_cases hc : c = 'e' ∨ c = 'E'
    · have hmark (chars : List Char) : exponentPart? (c :: chars) =
          exponentDigits? (Binary64.splitSign chars).1 (Binary64.splitSign chars).2 := by
        rcases hc with rfl | rfl <;> rfl
      have hne : chars ≠ [] := by
        rintro rfl
        rw [hmark] at h
        contradiction
      rw [hmark] at h
      obtain ⟨⟨back, hback⟩, hmore⟩ := takesFront_exponentDigits? _ _ _ _ h
      have hsign (more : List Char) := splitSign_append hne more
      obtain ⟨front, hfront⟩ := (hsign []).1
      refine ⟨⟨c :: (front ++ back), ?_⟩, fun more hstop => ?_⟩
      · rw [List.cons_append, List.append_assoc, ← hback, ← hfront]
      · rw [List.cons_append, hmark, (hsign more).2]
        exact hmore more hstop
    · have hnone (chars : List Char) : exponentPart? (c :: chars) = some (none, c :: chars) := by
        unfold exponentPart?
        split
        next heq => exact absurd (.inl (List.cons.inj heq).1) hc
        next heq => exact absurd (.inr (List.cons.inj heq).1) hc
        next => rfl
      rw [hnone] at h
      cases h
      exact ⟨⟨[], rfl⟩, fun more _ => hnone _⟩

/-- The value of a number out of its parts. -/
def partsValue? (negative : Bool) (whole fraction : List Char) (exponent : Option Int) : Option Value :=
  match fraction, exponent with
  | [], none => whole? negative whole
  | _, _ => float? negative whole fraction (exponent.getD 0)

/-- A number is its digits, its fraction and its exponent, taken one after the other. -/
theorem number?_eq_bind (negative : Bool) (chars : List Char) : number? false negative chars =
    (some (chars.span Char.isDigit)).bind fun (whole, rest) =>
      if whole.isEmpty || (whole.length != 1 && whole.head? == some '0') then none
      else (fractionPart? rest).bind fun (fraction, rest) =>
        (exponentPart? rest).bind fun (exponent, rest) =>
          (partsValue? negative whole fraction exponent).map (·, rest) := by
  unfold number?
  simp only [Option.bind_some]
  split
  next => rfl
  next =>
    cases fractionPart? (chars.span Char.isDigit).2 with
    | none => rfl
    | some part =>
      obtain ⟨fraction, rest⟩ := part
      change Option.bind (exponentPart? rest) _ = Option.bind (exponentPart? rest) _
      cases exponentPart? rest with
      | none => rfl
      | some part =>
        obtain ⟨exponent, rest⟩ := part
        cases fraction <;> cases exponent <;> rfl

/-- A number is taken off the front. -/
theorem takesFront_number? (negative : Bool) : TakesFront (number? false negative) := by
  have heq := funext (number?_eq_bind negative)
  rw [heq]
  exact takesFront_digits.bind fun whole => TakesFront.ite
    (takesFront_fractionPart?.bind fun fraction => takesFront_exponentPart?.bind fun exponent =>
      takesFront_map (partsValue? negative whole fraction exponent))
    (whole.isEmpty || (whole.length != 1 && whole.head? == some '0'))

/-! ### Written numbers -/

/-- What a number may be written with. -/
def writesNumber (c : Char) : Bool :=
  continuesNumber c || c == '-' || c == '+'

/-- A text that may be a number without its sign: a digit, and more that a number is written with. -/
structure IsUnsigned (chars : List Char) : Prop where
  begins : chars.head?.any Char.isDigit = true
  writes : ∀ c ∈ chars, writesNumber c = true

/-- Digits are among what a number may be written with. -/
theorem writesNumber_of_isDigit {c : Char} (hc : c.isDigit = true) : writesNumber c = true := by
  simp [writesNumber, continuesNumber, hc]

/-- A number may go on with whatever numbers are written with. -/
theorem IsUnsigned.append {chars more : List Char} (h : IsUnsigned chars)
    (hmore : ∀ c ∈ more, writesNumber c = true) : IsUnsigned (chars ++ more) where
  begins := by
    cases chars with
    | nil => exact absurd h.begins (by decide)
    | cons first rest => exact h.begins
  writes := List.forall_mem_append.mpr ⟨h.writes, hmore⟩

/-- Digits may be a number, if there are any. -/
theorem isUnsigned_of_isDigit {digits : List Char} (hne : digits ≠ [])
    (hdigits : ∀ c ∈ digits, c.isDigit = true) : IsUnsigned digits where
  begins := by
    cases digits with
    | nil => contradiction
    | cons first rest => exact hdigits first List.mem_cons_self
  writes c hc := writesNumber_of_isDigit (hdigits c hc)

section Layout

open Binary64 (Layout Decimal positionalDigits scientificDigits writtenExponent layOut)

/-- Digits with a point among, before or behind them may be a number. -/
theorem isUnsigned_positionalDigits {digits : List Char} (hne : digits ≠ [])
    (hdigits : ∀ c ∈ digits, c.isDigit = true) (exponent : Int) (pointZero : Bool) :
    IsUnsigned (positionalDigits digits exponent pointZero) := by
  have hwrites : ∀ c ∈ digits, writesNumber c = true := (isUnsigned_of_isDigit hne hdigits).writes
  have hzeros (n : Nat) : ∀ c ∈ List.replicate n '0', writesNumber c = true := by
    intro c hc
    rw [List.eq_of_mem_replicate hc]
    rfl
  unfold positionalDigits
  dsimp only
  split
  next =>
    apply ((isUnsigned_of_isDigit hne hdigits).append (hzeros _)).append
    cases pointZero <;> simp [writesNumber, continuesNumber]
  next =>
    split
    next hwhole =>
      have htake : digits.take (digits.length + exponent).toNat ≠ [] := by
        simp only [ne_eq, List.take_eq_nil_iff, hne, or_false]
        omega
      apply (isUnsigned_of_isDigit htake fun c hc => hdigits c (List.mem_of_mem_take hc)).append
      exact List.forall_mem_cons.mpr ⟨rfl, fun c hc => hwrites c (List.mem_of_mem_drop hc)⟩
    next =>
      have hpoint : IsUnsigned ['0', '.'] := ⟨rfl, by simp [writesNumber, continuesNumber]⟩
      exact (hpoint.append (hzeros _)).append hwrites

/-- An exponent is written with what numbers are written with. -/
theorem writesNumber_of_mem_writtenExponent (signed : Bool) (e : Int) :
    ∀ c ∈ writtenExponent signed e, writesNumber c = true := by
  have hdigits : ∀ c ∈ Nat.toDigits 10 e.natAbs, writesNumber c = true := fun c hc =>
    writesNumber_of_isDigit (isDigit_of_mem_toDigits _ c hc)
  unfold writtenExponent
  split
  next => exact List.forall_mem_cons.mpr ⟨rfl, hdigits⟩
  next =>
    refine List.forall_mem_append.mpr ⟨?_, hdigits⟩
    cases signed <;> simp [writesNumber]

/-- Digits with a point behind the first of them may be a number. -/
theorem isUnsigned_scientificDigits {digits : List Char} (hne : digits ≠ [])
    (hdigits : ∀ c ∈ digits, c.isDigit = true) : IsUnsigned (scientificDigits digits) := by
  have hall := isUnsigned_of_isDigit hne hdigits
  unfold scientificDigits
  split
  next => exact hall
  next => exact hall
  next first rest _ =>
    obtain ⟨hfirst, hrest⟩ := List.forall_mem_cons.mp hall.writes
    exact ⟨hall.begins, List.forall_mem_cons.mpr ⟨hfirst, List.forall_mem_cons.mpr ⟨rfl, hrest⟩⟩⟩

/-- A decimal may be a number as it is set out. -/
theorem isUnsigned_layOut (layout : Layout) (d : Decimal) : IsUnsigned (layOut layout d) := by
  have hne : Nat.toDigits 10 d.digits ≠ [] := Nat.toDigits_ne_nil
  have hdigits := isDigit_of_mem_toDigits d.digits
  unfold layOut
  dsimp only
  split
  next => exact isUnsigned_positionalDigits hne hdigits _ _
  next =>
    apply (isUnsigned_scientificDigits hne hdigits).append
    exact List.forall_mem_cons.mpr ⟨rfl, writesNumber_of_mem_writtenExponent _ _⟩

end Layout

/-- A finite number is written as a number, behind its sign if it is negative. -/
theorem exists_number_eq (negative : Bool) (m : Nat) (q : Int) :
    ∃ size, number (.finite negative m q) = (if negative then '-' :: size else size) ∧ IsUnsigned size := by
  let layout := Binary64.documentLayout
  let size := if m = 0 then ['0', '.', '0'] else Binary64.layOut layout (Binary64.shortest layout.tie m q)
  have hnumber : number (.finite negative m q) = if negative then '-' :: size else size :=
    String.toList_ofList
  refine ⟨size, hnumber, ?_⟩
  by_cases hzero : m = 0
  · have hsize : size = ['0', '.', '0'] := if_pos hzero
    rw [hsize]
    exact ⟨rfl, by simp [writesNumber, continuesNumber]⟩
  · have hsize : size = Binary64.layOut layout (Binary64.shortest layout.tie m q) := if_neg hzero
    rw [hsize]
    exact isUnsigned_layOut layout _

end BrokerAdmin.Json
