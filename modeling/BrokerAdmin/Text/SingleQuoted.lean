/-!
# Single-quoted literals

A literal stands between single quotes, and a quote inside it is written twice.
-/

namespace BrokerAdmin.Text

/-- The characters of a literal after its opening quote, and what follows its closing quote; nothing
where the literal is not closed. -/
def literal? : List Char → Option (List Char × List Char)
  | [] => none
  | '\'' :: '\'' :: rest => (literal? rest).map fun (body, rest) => ('\'' :: body, rest)
  | '\'' :: rest => some ([], rest)
  | c :: rest => (literal? rest).map fun (body, rest) => (c :: body, rest)

/-- The characters of a literal with every quote among them written twice. -/
def doubled (body : List Char) : List Char :=
  body.flatMap fun c => if c = '\'' then ['\'', '\''] else [c]

/-- A literal as it is written. -/
def enclosed (body : List Char) : List Char :=
  '\'' :: doubled body ++ ['\'']

/-- A literal and its closing quote take at least one character. -/
theorem length_of_literal? {chars body rest : List Char} (h : literal? chars = some (body, rest)) :
    rest.length < chars.length := by
  fun_induction literal? chars generalizing body rest with
  | case1 => simp at h
  | case2 _ ih =>
    obtain ⟨⟨body', rest'⟩, hrest, heq⟩ := Option.map_eq_some_iff.1 h
    simp only [Prod.mk.injEq] at heq
    have := ih hrest
    simp only [List.length_cons, ← heq.2]
    omega
  | case3 => simp_all
  | case4 _ _ _ _ ih =>
    obtain ⟨⟨body', rest'⟩, hrest, heq⟩ := Option.map_eq_some_iff.1 h
    simp only [Prod.mk.injEq] at heq
    have := ih hrest
    simp only [List.length_cons, ← heq.2]
    omega

end BrokerAdmin.Text
