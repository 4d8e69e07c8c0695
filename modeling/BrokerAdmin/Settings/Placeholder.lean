/-!
# Placeholders

A text may hold placeholders `${NAME}` and `${NAME:-DEFAULT}`. Each is replaced by the value of the
named variable, also an empty one, or else by its default, or else by nothing. The text is passed over
once from left to right, and what replaces a placeholder is not looked at again.
-/

namespace BrokerAdmin.Settings

/-- A placeholder. -/
structure Placeholder where
  name : List Char
  default : List Char
  deriving DecidableEq

/-- Whether the name of a placeholder can hold a character. -/
def isNameChar (c : Char) : Bool :=
  c != '\x7d' && c != ':'

/-- Whether the default of a placeholder can hold a character. -/
def isDefaultChar (c : Char) : Bool :=
  c != '\x7d'

/-- The default of a placeholder, if it has one, and what follows the closing brace. -/
def placeholderEnd? : List Char → Option (List Char × List Char)
  | '\x7d' :: rest => some ([], rest)
  | ':' :: '-' :: rest =>
    match rest.dropWhile isDefaultChar with
    | _ :: more => some (rest.takeWhile isDefaultChar, more)
    | [] => none
  | _ => none

/-- The placeholder after its dollar sign and opening brace, and what follows it. -/
def placeholder? (chars : List Char) : Option (Placeholder × List Char) :=
  let name := chars.takeWhile isNameChar
  if name.isEmpty then none
  else
    (placeholderEnd? (chars.dropWhile isNameChar)).map fun (default, rest) => (⟨name, default⟩, rest)

/-- The end of a placeholder takes some of the text. -/
theorem length_of_placeholderEnd? {chars default rest : List Char}
    (h : placeholderEnd? chars = some (default, rest)) : rest.length < chars.length := by
  unfold placeholderEnd? at h
  split at h
  · simp only [Option.some.injEq, Prod.mk.injEq] at h
    simp [h.2]
  · rename_i more
    split at h
    · rename_i heq
      simp only [Option.some.injEq, Prod.mk.injEq] at h
      have hle := (List.dropWhile_sublist isDefaultChar (l := more)).length_le
      rw [heq] at hle
      simp only [List.length_cons, ← h.2] at hle ⊢
      omega
    · simp at h
  · simp at h

/-- A placeholder takes some of the text. -/
theorem length_of_placeholder? {chars rest : List Char} {p : Placeholder}
    (h : placeholder? chars = some (p, rest)) : rest.length < chars.length := by
  unfold placeholder? at h
  dsimp only at h
  split at h
  · simp at h
  · obtain ⟨⟨default, rest'⟩, hend, heq⟩ := Option.map_eq_some_iff.1 h
    simp only [Prod.mk.injEq] at heq
    have hlt := length_of_placeholderEnd? hend
    have hle := (List.dropWhile_sublist isNameChar (l := chars)).length_le
    rw [← heq.2]
    omega

/-- What replaces a placeholder in an environment. -/
def Placeholder.value (environment : String → Option String) (p : Placeholder) : List Char :=
  ((environment (String.ofList p.name)).map String.toList).getD p.default

/-- The text with its placeholders replaced. -/
def substitute (environment : String → Option String) (chars : List Char) : List Char :=
  match chars with
  | [] => []
  | '$' :: '\x7b' :: rest =>
    match h : placeholder? rest with
    | some (p, more) =>
      have := length_of_placeholder? h
      p.value environment ++ substitute environment more
    | none => '$' :: substitute environment ('\x7b' :: rest)
  | c :: rest => c :: substitute environment rest
termination_by chars.length
decreasing_by all_goals simp only [List.length_cons]; omega

end BrokerAdmin.Settings
