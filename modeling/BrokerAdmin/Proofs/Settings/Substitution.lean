import BrokerAdmin.Proofs.Filter.Scanning
import BrokerAdmin.Settings.Placeholder
import Mathlib.Tactic.Push

/-!
# One pass over the placeholders

A text is cut from the left: where a placeholder begins it is cut off as a whole, and where none begins one
character is. A name may hold dollar signs and opening braces, so a placeholder can begin inside what fails
to be one, or inside another; but it ends with the first closing brace, and so there is one way to cut a
text. Substitution keeps the characters and replaces the placeholders of this cut. Since the cut is that of
the text before any replacement, what replaces a placeholder is never looked at.

A text that is divided where no placeholder is cut through is cut, and substituted, part by part.
-/

namespace BrokerAdmin.Settings

/-! ### Placeholders as they are written -/

/-- A name that a placeholder can have. -/
structure Placeholder.Named (p : Placeholder) : Prop where
  nonempty : p.name ≠ []
  brace : '\x7d' ∉ p.name
  colon : ':' ∉ p.name

/-- How a placeholder is written, with or without a default. -/
inductive Placeholder.Spelled (p : Placeholder) : List Char → Prop where
  | bare (hname : p.Named) (hdefault : p.default = []) :
    Spelled p ('$' :: '\x7b' :: (p.name ++ ['\x7d']))
  | defaulted (hname : p.Named) (hdefault : '\x7d' ∉ p.default) :
    Spelled p ('$' :: '\x7b' :: (p.name ++ ':' :: '-' :: (p.default ++ ['\x7d'])))

/-- A placeholder stands at the front of a text. -/
def Starts (chars : List Char) : Prop :=
  ∃ (p : Placeholder) (written rest : List Char), p.Spelled written ∧ chars = written ++ rest

/-- A placeholder at the front stays there, whatever follows the text. -/
theorem Starts.append {chars : List Char} (h : Starts chars) (more : List Char) :
    Starts (chars ++ more) := by
  obtain ⟨p, written, rest, hspelled, rfl⟩ := h
  exact ⟨p, written, rest ++ more, hspelled, List.append_assoc written rest more⟩

/-- The characters of names. -/
theorem forall_isNameChar_iff {chars : List Char} :
    (∀ c ∈ chars, isNameChar c = true) ↔ '\x7d' ∉ chars ∧ ':' ∉ chars := by
  simp only [isNameChar, Bool.and_eq_true, bne_iff_ne]
  constructor
  · intro h
    exact ⟨fun hbrace => (h _ hbrace).1 rfl, fun hcolon => (h _ hcolon).2 rfl⟩
  · rintro ⟨hbrace, hcolon⟩ c hc
    exact ⟨fun h => hbrace (h ▸ hc), fun h => hcolon (h ▸ hc)⟩

/-- The characters of defaults. -/
theorem forall_isDefaultChar_iff {chars : List Char} :
    (∀ c ∈ chars, isDefaultChar c = true) ↔ '\x7d' ∉ chars := by
  simp only [isDefaultChar, bne_iff_ne]
  exact ⟨fun h hbrace => h _ hbrace rfl, fun h c hc hbrace => h (hbrace ▸ hc)⟩

/-- What is read after a name is a closing brace, or a default and a closing brace. -/
theorem placeholderEnd?_eq_some_iff {chars default rest : List Char} :
    placeholderEnd? chars = some (default, rest) ↔
      (default = [] ∧ chars = '\x7d' :: rest) ∨
        ('\x7d' ∉ default ∧ chars = ':' :: '-' :: (default ++ '\x7d' :: rest)) := by
  constructor
  · intro h
    unfold placeholderEnd? at h
    split at h
    next =>
      cases h
      exact .inl ⟨rfl, rfl⟩
    next more =>
      split at h
      next c found hdrop =>
        cases h
        have hstop := Filter.head?_dropWhile_any isDefaultChar more
        rw [hdrop] at hstop
        obtain rfl : c = '\x7d' := by simpa [isDefaultChar] using hstop
        refine .inr ⟨forall_isDefaultChar_iff.mp fun _ => List.mem_takeWhile_imp, ?_⟩
        rw [← hdrop, List.takeWhile_append_dropWhile]
      next => contradiction
    next => contradiction
  · rintro (⟨rfl, rfl⟩ | ⟨hdefault, rfl⟩)
    · rfl
    · have hchars := forall_isDefaultChar_iff.mpr hdefault
      have hdrop : (default ++ '\x7d' :: rest).dropWhile isDefaultChar = '\x7d' :: rest :=
        Filter.dropWhile_append_of_stop hchars rfl
      have htake : (default ++ '\x7d' :: rest).takeWhile isDefaultChar = default :=
        Filter.takeWhile_append_of_stop hchars rfl
      simp only [placeholderEnd?, hdrop, htake]

/-- What is read after a dollar sign and an opening brace is a placeholder that is written there. -/
theorem placeholder?_eq_some_iff {chars rest : List Char} {p : Placeholder} :
    placeholder? chars = some (p, rest) ↔
      ∃ written, p.Spelled written ∧ '$' :: '\x7b' :: chars = written ++ rest := by
  constructor
  · intro h
    unfold placeholder? at h
    dsimp only at h
    split at h
    next => contradiction
    next hempty =>
      obtain ⟨⟨default, rest⟩, hend, heq⟩ := Option.map_eq_some_iff.mp h
      cases heq
      have hchars : '\x7d' ∉ chars.takeWhile isNameChar ∧ ':' ∉ chars.takeWhile isNameChar :=
        forall_isNameChar_iff.mp fun _ => List.mem_takeWhile_imp
      have hnamed : (⟨chars.takeWhile isNameChar, default⟩ : Placeholder).Named :=
        ⟨by simpa using hempty, hchars.1, hchars.2⟩
      have hsplit := (List.takeWhile_append_dropWhile (p := isNameChar) (l := chars)).symm
      rcases placeholderEnd?_eq_some_iff.mp hend with ⟨hdefault, hdrop⟩ | ⟨hdefault, hdrop⟩
      · refine ⟨_, .bare hnamed hdefault, ?_⟩
        rw [hdrop] at hsplit
        simpa using hsplit
      · refine ⟨_, .defaulted hnamed hdefault, ?_⟩
        rw [hdrop] at hsplit
        simpa using hsplit
  · rintro ⟨written, hspelled, heq⟩
    obtain ⟨tail, hchars, hstop, hend⟩ : ∃ tail, chars = p.name ++ tail ∧
        tail.head?.any isNameChar = false ∧ placeholderEnd? tail = some (p.default, rest) := by
      cases hspelled with
      | bare hname hdefault =>
        refine ⟨'\x7d' :: rest, by simpa using heq, rfl, ?_⟩
        exact placeholderEnd?_eq_some_iff.mpr (.inl ⟨hdefault, rfl⟩)
      | defaulted hname hdefault =>
        refine ⟨':' :: '-' :: (p.default ++ '\x7d' :: rest), by simpa using heq, rfl, ?_⟩
        exact placeholderEnd?_eq_some_iff.mpr (.inr ⟨hdefault, rfl⟩)
    have hnamed : p.Named := by cases hspelled <;> assumption
    have hname := forall_isNameChar_iff.mpr ⟨hnamed.brace, hnamed.colon⟩
    have hnonempty : p.name.isEmpty = false := by simpa using hnamed.nonempty
    simp [placeholder?, hchars, Filter.takeWhile_append_of_stop hname hstop,
      Filter.dropWhile_append_of_stop hname hstop, hnonempty, hend]

/-- A placeholder begins with a dollar sign and an opening brace. -/
theorem Placeholder.Spelled.exists_eq_cons {p : Placeholder} {written : List Char}
    (h : p.Spelled written) : ∃ tail, written = '$' :: '\x7b' :: tail := by
  cases h <;> exact ⟨_, rfl⟩

/-- What stands at the front of a text is one placeholder at most, and it ends in one place. -/
theorem Placeholder.Spelled.unique {p p' : Placeholder} {written written' rest rest' : List Char}
    (h : p.Spelled written) (h' : p'.Spelled written') (heq : written ++ rest = written' ++ rest') :
    p = p' ∧ written = written' ∧ rest = rest' := by
  obtain ⟨tail, rfl⟩ := h.exists_eq_cons
  have hread : placeholder? (tail ++ rest) = some (p, rest) := placeholder?_eq_some_iff.mpr ⟨_, h, rfl⟩
  have hread' : placeholder? (tail ++ rest) = some (p', rest') :=
    placeholder?_eq_some_iff.mpr ⟨_, h', heq⟩
  cases hread.symm.trans hread'
  exact ⟨rfl, List.append_cancel_right heq, rfl⟩

/-! ### Substitution from the front -/

/-- A placeholder at the front is replaced, and substitution goes on behind it. -/
theorem substitute_spelled (environment : String → Option String) {p : Placeholder} {written : List Char}
    (h : p.Spelled written) (rest : List Char) :
    substitute environment (written ++ rest) = p.value environment ++ substitute environment rest := by
  obtain ⟨tail, rfl⟩ := h.exists_eq_cons
  have hread : placeholder? (tail ++ rest) = some (p, rest) := placeholder?_eq_some_iff.mpr ⟨_, h, rfl⟩
  rw [List.cons_append, List.cons_append, substitute]
  split
  next found =>
    rw [hread] at found
    cases found
    rfl
  next hnone =>
    rw [hread] at hnone
    contradiction

/-- A character at which no placeholder begins is kept. -/
theorem substitute_kept (environment : String → Option String) {c : Char} {rest : List Char}
    (h : ¬ Starts (c :: rest)) :
    substitute environment (c :: rest) = c :: substitute environment rest := by
  rw [substitute.eq_def]
  split
  next heq => contradiction
  next more heq =>
    cases heq
    split
    next p found hread =>
      obtain ⟨written, hspelled, hchars⟩ := placeholder?_eq_some_iff.mp hread
      exact absurd ⟨p, written, found, hspelled, hchars⟩ h
    next => rfl
  next heq =>
    cases heq
    rfl

/-! ### The cut -/

/-- A part of a text: a character that is kept, or a placeholder as it is written. -/
inductive Piece where
  | kept (c : Char)
  | placeholder (p : Placeholder) (written : List Char)

/-- The text of a piece. -/
def Piece.written : Piece → List Char
  | kept c => [c]
  | placeholder _ written => written

/-- What becomes of a piece: the value of the variable, also an empty one, or else the default. -/
def Piece.replaced (environment : String → Option String) : Piece → List Char
  | kept c => [c]
  | placeholder p _ =>
    match environment (String.ofList p.name) with
    | some value => value.toList
    | none => p.default

/-- How a text is cut from the left: what begins with a placeholder loses the placeholder, and what does not
loses one character. -/
inductive Cut : List Char → List Piece → Prop where
  | nil : Cut [] []
  | kept {c : Char} {rest : List Char} {pieces : List Piece} (hnone : ¬ Starts (c :: rest))
    (hrest : Cut rest pieces) : Cut (c :: rest) (.kept c :: pieces)
  | placeholder {p : Placeholder} {written rest : List Char} {pieces : List Piece}
    (hspelled : p.Spelled written) (hrest : Cut rest pieces) :
    Cut (written ++ rest) (.placeholder p written :: pieces)

/-- A place of a text lies inside a placeholder of its cut: some of the placeholder stands before it and
some behind it. -/
def Inside (place : Nat) (pieces : List Piece) : Prop :=
  ∃ before p written after, pieces = before ++ .placeholder p written :: after ∧
    (before.flatMap Piece.written).length < place ∧
    place < (before.flatMap Piece.written).length + written.length

/-- Every text can be cut. -/
theorem exists_cut (chars : List Char) : ∃ pieces, Cut chars pieces := by
  induction hlength : chars.length using Nat.strong_induction_on generalizing chars with
  | _ length ih =>
    cases chars with
    | nil => exact ⟨[], .nil⟩
    | cons c rest =>
      by_cases hstarts : Starts (c :: rest)
      · obtain ⟨p, written, more, hspelled, hchars⟩ := hstarts
        obtain ⟨tail, rfl⟩ := hspelled.exists_eq_cons
        have hshorter : more.length < length := by
          rw [← hlength, hchars]
          simp
          omega
        obtain ⟨pieces, hcut⟩ := ih more.length hshorter more rfl
        rw [hchars]
        exact ⟨_, .placeholder hspelled hcut⟩
      · have hshorter : rest.length < length := by
          rw [← hlength]
          simp
        obtain ⟨pieces, hcut⟩ := ih rest.length hshorter rest rfl
        exact ⟨.kept c :: pieces, .kept hstarts hcut⟩

/-- A text is cut in one way. -/
theorem Cut.unique {chars : List Char} {pieces pieces' : List Piece} (h : Cut chars pieces)
    (h' : Cut chars pieces') : pieces' = pieces := by
  induction h generalizing pieces' with
  | nil =>
    generalize hchars : ([] : List Char) = chars at h'
    cases h' with
    | nil => rfl
    | kept => contradiction
    | placeholder hspelled =>
      obtain ⟨tail, rfl⟩ := hspelled.exists_eq_cons
      contradiction
  | @kept c rest pieces hnone _ ih =>
    generalize hchars : c :: rest = chars at h'
    cases h' with
    | nil => contradiction
    | kept _ hrest =>
      cases hchars
      rw [ih hrest]
    | @placeholder p written more _ hspelled =>
      exact absurd ⟨p, written, more, hspelled, hchars⟩ hnone
  | @placeholder p written rest pieces hspelled _ ih =>
    generalize hchars : written ++ rest = chars at h'
    cases h' with
    | nil =>
      obtain ⟨tail, rfl⟩ := hspelled.exists_eq_cons
      contradiction
    | kept hnone => exact absurd ⟨p, written, rest, hspelled, hchars.symm⟩ hnone
    | placeholder hspelled' hrest =>
      obtain ⟨rfl, rfl, rfl⟩ := hspelled.unique hspelled' hchars
      rw [ih hrest]

/-- The pieces of a cut are the text, in its order. -/
theorem Cut.written_eq {chars : List Char} {pieces : List Piece} (h : Cut chars pieces) :
    pieces.flatMap Piece.written = chars := by
  induction h with
  | nil => rfl
  | kept _ _ ih => rw [List.flatMap_cons, ih, Piece.written, List.singleton_append]
  | placeholder _ _ ih => rw [List.flatMap_cons, ih, Piece.written]

/-- Substitution replaces the pieces of the cut. -/
theorem Cut.substitute_eq {chars : List Char} {pieces : List Piece} (h : Cut chars pieces)
    (environment : String → Option String) :
    substitute environment chars = pieces.flatMap (Piece.replaced environment) := by
  induction h with
  | nil => simp [substitute]
  | kept hnone _ ih =>
    rw [substitute_kept environment hnone, ih, List.flatMap_cons, Piece.replaced, List.singleton_append]
  | @placeholder p written rest pieces hspelled _ ih =>
    have hvalue : p.value environment = Piece.replaced environment (.placeholder p written) := by
      dsimp only [Placeholder.value, Piece.replaced]
      cases environment (String.ofList p.name) <;> rfl
    rw [substitute_spelled environment hspelled, ih, hvalue, List.flatMap_cons]

/-- A place that is inside a placeholder is so whatever piece stands before. -/
theorem Inside.cons {place : Nat} {pieces : List Piece} (h : Inside place pieces) (piece : Piece) :
    Inside (piece.written.length + place) (piece :: pieces) := by
  obtain ⟨before, p, written, after, rfl, hlow, hhigh⟩ := h
  refine ⟨piece :: before, p, written, after, rfl, ?_, ?_⟩
  · simp only [List.flatMap_cons, List.length_append]
    omega
  · simp only [List.flatMap_cons, List.length_append]
    omega

/-- A text that is divided outside its placeholders is cut part by part. -/
theorem Cut.exists_append {chars left right : List Char} {pieces : List Piece} (h : Cut chars pieces)
    (hchars : chars = left ++ right) (houtside : ¬ Inside left.length pieces) :
    ∃ front back, pieces = front ++ back ∧ Cut left front ∧ Cut right back := by
  induction h generalizing left with
  | nil =>
    obtain ⟨rfl, rfl⟩ := List.append_eq_nil_iff.mp hchars.symm
    exact ⟨[], [], rfl, .nil, .nil⟩
  | @kept c rest pieces hnone hrest ih =>
    cases left with
    | nil =>
      rw [List.nil_append] at hchars
      rw [← hchars]
      exact ⟨[], .kept c :: pieces, rfl, .nil, .kept hnone hrest⟩
    | cons c' left =>
      rw [List.cons_append] at hchars
      obtain ⟨rfl, rfl⟩ := List.cons.inj hchars
      have houtside' : ¬ Inside left.length pieces := by
        intro hinside
        apply houtside
        simpa [Piece.written, Nat.add_comm] using hinside.cons (.kept c)
      obtain ⟨front, back, rfl, hfront, hback⟩ := ih rfl houtside'
      have hnone' : ¬ Starts (c :: left) := fun hstarts => hnone (hstarts.append right)
      exact ⟨.kept c :: front, back, rfl, .kept hnone' hfront, hback⟩
  | @placeholder p written rest pieces hspelled hrest ih =>
    rcases List.append_eq_append_iff.mp hchars with ⟨left', rfl, rfl⟩ | ⟨cut, rfl, rfl⟩
    · have houtside' : ¬ Inside left'.length pieces := by
        intro hinside
        apply houtside
        simpa [Piece.written] using hinside.cons (.placeholder p written)
      obtain ⟨front, back, rfl, hfront, hback⟩ := ih rfl houtside'
      exact ⟨.placeholder p written :: front, back, rfl, .placeholder hspelled hfront, hback⟩
    · -- the division is in the placeholder, hence at one of its ends
      have hends : left = [] ∨ cut = [] := by
        by_contra hneither
        push Not at hneither
        apply houtside
        refine ⟨[], p, left ++ cut, pieces, rfl, ?_, ?_⟩
        · simpa [List.length_pos_iff] using hneither.1
        · simpa [List.length_pos_iff] using hneither.2
      rcases hends with rfl | rfl
      · exact ⟨[], _, rfl, .nil, .placeholder hspelled hrest⟩
      · rw [List.append_nil] at hspelled ⊢
        have hleft : Cut (left ++ []) [.placeholder p left] := .placeholder hspelled .nil
        rw [List.append_nil] at hleft
        exact ⟨[.placeholder p left], pieces, rfl, hleft, hrest⟩

/-! ### The pass as a whole -/

/-- Substitution is one pass from left to right. There is one way to cut a text from the left into
placeholders and characters at which none begins; the pieces are the whole text in its order. Whatever the
environment, the characters are kept and each placeholder is replaced by the value of its variable, or else
by its default. Where the text is divided outside these placeholders, substituting it is substituting its
parts. -/
theorem substitute_single_pass (text : List Char) :
    ∃ pieces, Cut text pieces ∧ (∀ pieces', Cut text pieces' → pieces' = pieces) ∧
      pieces.flatMap Piece.written = text ∧
      ∀ environment, substitute environment text = pieces.flatMap (Piece.replaced environment) ∧
        ∀ left right, text = left ++ right → ¬ Inside left.length pieces →
          substitute environment text = substitute environment left ++ substitute environment right := by
  obtain ⟨pieces, hcut⟩ := exists_cut text
  refine ⟨pieces, hcut, fun _ => hcut.unique, hcut.written_eq, fun environment => ?_⟩
  refine ⟨hcut.substitute_eq environment, fun left right htext houtside => ?_⟩
  obtain ⟨front, back, rfl, hleft, hright⟩ := hcut.exists_append htext houtside
  rw [hcut.substitute_eq, hleft.substitute_eq, hright.substitute_eq, List.flatMap_append]

/-- A placeholder that is not closed gives way to the next one, and a value is not substituted again. -/
example : substitute (fun name => if name = "a" then some "$\x7bb\x7d" else none)
    "$\x7ba:$\x7ba\x7d$\x7bb:-x\x7d".toList = "$\x7ba:$\x7bb\x7dx".toList := by decide +kernel

end BrokerAdmin.Settings
