import Indentation.Proofs.Lossless

/-! How far an identifier is read. The pattern of identifiers lets a word end in an underscore and operator
characters. Reading is greedy: the word takes the underscore with it, so the ending is never found, and the
operator characters are left for the next token. This is the only way in which an identifier stops short of
what the pattern describes. -/
namespace Indentation
open Shape

inductive Quoted : Text → Prop where
  | mk {inside : Text} (free : ∀ c ∈ inside, c ≠ '\x60' ∧ c ≠ '\n') :
      Quoted ('\x60' :: (inside ++ ['\x60']))

inductive Plain : Text → Prop where
  | mk {c : Char} {w : Text} (first : isWordStart c = true ∨ c = '$')
      (rest : ∀ d ∈ w, Text.isWordChar d = true ∨ d = '$') : Plain (c :: w)

/- What the pattern of identifiers describes: a mixed name is a word, an underscore and operator characters. -/
inductive Identifier : Text → Prop where
  | quoted {x : Text} (name : Quoted x) : Identifier x
  | plain {x : Text} (name : Plain x) : Identifier x
  | mixed {w signs : Text} (name : Plain w) (some : signs ≠ [])
      (operators : ∀ c ∈ signs, isOperatorChar c = true) : Identifier (w ++ '_' :: signs)

theorem Quoted.close {w : Text} {c : Char} (name : Quoted (w ++ [c])) : c = '\x60' := by
  generalize same : w ++ [c] = x at name
  obtain ⟨free⟩ := name
  have last := congrArg List.getLast? same
  rw [← List.cons_append, List.getLast?_concat, List.getLast?_concat] at last
  exact Option.some.inj last

theorem Plain.front {w : Text} {c : Char} (name : Plain (w ++ [c])) (some : w ≠ []) : Plain w := by
  cases w with
  | nil => contradiction
  | cons d w =>
    generalize same : d :: w ++ [c] = x at name
    obtain ⟨first, rest⟩ := name
    obtain ⟨rfl, rfl⟩ := List.cons.inj same
    exact .mk first fun d member => rest d (List.mem_append_left _ member)

theorem operatorExtends {c : Char} (operator : isOperatorChar c = true) :
    (Text.isWordChar c || c == '$') = false := by
  have table : (['!', '#', '%', '&', '*', '+', '-', '/', ':', '<', '=', '>', '?', '@', '\\', '^', '|', '~'].all
      fun d => !(Text.isWordChar d || d == '$')) = true := by decide
  simpa using List.all_eq_true.mp table c (by simpa [isOperatorChar] using operator)

namespace Shape

theorem quotedIdentifierReads {x : Text} (name : Quoted x) (u : Text) : quotedIdentifier (x ++ u) = x.length := by
  obtain ⟨free⟩ := name
  rename_i inside
  have text : '\x60' :: (inside ++ ['\x60']) ++ u = '\x60' :: (inside ++ '\x60' :: u) := by simp
  have length : span (fun c => c != '\x60' && c != '\n') (inside ++ '\x60' :: u) = inside.length := by
    rw [span, List.takeWhile_append_of_pos (fun c member => by simpa using free c member)]
    simp
  rw [text, quotedIdentifier, length]
  simp

theorem plainIdentifierReads {w : Text} (name : Plain w) (u : Text) :
    plainIdentifier (w ++ u) = w.length + span (fun d => Text.isWordChar d || d == '$') u := by
  obtain ⟨first, rest⟩ := name
  rw [List.cons_append, plainIdentifier, if_pos (by simpa using first), span,
    List.takeWhile_append_of_pos (fun d member => by simpa using rest d member)]
  rw [List.length_append, List.length_cons, span]
  omega

theorem quotedIdentifierTaken (t : Text) :
    quotedIdentifier t = 0 ∨ Quoted (t.take (quotedIdentifier t)) := by
  fun_cases quotedIdentifier t with
  | case1 cs inside u close =>
    have front : cs.take inside = cs.takeWhile fun c => c != '\x60' && c != '\n' :=
      (List.prefix_iff_eq_take.mp (List.takeWhile_prefix _)).symm
    have text : cs = cs.take inside ++ '\x60' :: u := by rw [← close, List.take_append_drop]
    have free : ∀ c ∈ cs.take inside, c ≠ '\x60' ∧ c ≠ '\n' := by
      intro c member
      rw [front] at member
      simpa using List.mem_takeWhile_imp member
    have length : (cs.take inside).length = inside := by rw [front]; rfl
    have taken : ('\x60' :: cs).take (inside + 2) = '\x60' :: (cs.take inside ++ ['\x60']) := by
      rw [List.take_succ_cons, List.take_add, close]
      rfl
    exact .inr (taken ▸ .mk free)
  | case2 => exact .inl rfl
  | case3 => exact .inl rfl

theorem plainIdentifierTaken (t : Text) : plainIdentifier t = 0 ∨ Plain (t.take (plainIdentifier t)) := by
  fun_cases plainIdentifier t with
  | case1 c cs first =>
    have front : cs.take (span (fun d => Text.isWordChar d || d == '$') cs) =
        cs.takeWhile fun d => Text.isWordChar d || d == '$' :=
      (List.prefix_iff_eq_take.mp (List.takeWhile_prefix _)).symm
    rw [Nat.add_comm, List.take_succ_cons, front]
    exact .inr (.mk (by simpa using first) fun d member => by simpa using List.mem_takeWhile_imp member)
  | case2 => exact .inl rfl
  | case3 => exact .inl rfl

theorem identifierTaken {t : Text} (found : identifier t ≠ 0) :
    Quoted (t.take (identifier t)) ∨ Plain (t.take (identifier t)) := by
  unfold identifier at found ⊢
  split at found
  · rename_i none
    rw [if_pos none]
    exact .inr ((plainIdentifierTaken t).resolve_left found)
  · rename_i some
    rw [if_neg some]
    exact .inl ((quotedIdentifierTaken t).resolve_left some)

theorem identifierPlain {w : Text} (name : Plain w) (u : Text) :
    identifier (w ++ u) = w.length + span (fun d => Text.isWordChar d || d == '$') u := by
  have unquoted : quotedIdentifier (w ++ u) = 0 := by
    obtain ⟨first, rest⟩ := name
    rename_i c w
    have other : c ≠ '\x60' := by
      rintro rfl
      exact absurd first (by decide)
    simp [quotedIdentifier, other]
  rw [identifier, if_pos unquoted, plainIdentifierReads name]

theorem identifierMixed {w signs : Text} (name : Plain w) (some : signs ≠ [])
    (operators : ∀ c ∈ signs, isOperatorChar c = true) (u : Text) :
    identifier (w ++ '_' :: signs ++ u) = (w ++ ['_']).length := by
  cases signs with
  | nil => contradiction
  | cons c signs =>
    have stops := operatorExtends (operators c List.mem_cons_self)
    rw [List.append_assoc, identifierPlain name, span, List.cons_append, List.takeWhile_cons_of_pos (by decide),
      List.cons_append, List.takeWhile_cons_of_neg (by simpa using stops)]
    simp

theorem identifierReads {x : Text} (name : Identifier x) (u : Text) :
    x.length ≤ identifier (x ++ u) ∨ ∃ w signs, x = w ++ '_' :: signs ∧ Plain w ∧ signs ≠ [] ∧
      (∀ c ∈ signs, isOperatorChar c = true) ∧ identifier (x ++ u) = (w ++ ['_']).length := by
  cases name with
  | quoted name =>
    have reads := quotedIdentifierReads name u
    have some : quotedIdentifier (x ++ u) ≠ 0 := by
      rw [reads]
      obtain ⟨free⟩ := name
      exact Nat.succ_ne_zero _
    exact .inl (by rw [identifier, if_neg some, reads])
  | plain name => exact .inl (by rw [identifierPlain name]; omega)
  | mixed name some operators =>
    exact .inr ⟨_, _, rfl, name, some, operators, identifierMixed name some operators u⟩

theorem identifierKind {t u : Text} (kind : Kind.ofLexeme (first t).1 u = .identifier) :
    (first t).2 = identifier t ∧ identifier t ≠ 0 := by
  have shape := firstOwn rfl kind
  have only : ∀ f, (Kind.identifier, f) ∈ all → f = identifier := by simp [all]
  rcases firstShape t with ⟨f, member, length, some⟩ | single
  · rw [shape] at member
    exact only f member ▸ ⟨length, some⟩
  · rw [single] at shape
    contradiction

end Shape

theorem tokenizeIdentifier (text : Text) (tok : Token) (member : tok ∈ tokenize text)
    (kind : tok.kind = .identifier) :
    (Quoted tok.text ∨ Plain tok.text) ∧
    ∀ x, x <+: text.drop tok.start → tok.text.length < x.length →
      (Identifier x ↔ ∃ w signs, w ≠ [] ∧ tok.text = w ++ ['_'] ∧ x = tok.text ++ signs ∧
        ∀ c ∈ signs, isOperatorChar c = true) := by
  obtain ⟨a, b, rfl, at_⟩ := Token.between member
  rw [at_.kind] at kind
  obtain ⟨length, some⟩ := identifierKind kind
  rw [at_.length] at length
  have names : Quoted tok.text ∨ Plain tok.text := by
    have taken := identifierTaken some
    rwa [← length, List.take_left] at taken
  refine ⟨names, fun x front longer => ?_⟩
  rw [at_.start, List.append_assoc, List.drop_left] at front
  obtain ⟨u, rest⟩ := front
  constructor
  · intro name
    rcases identifierReads name u with whole | ⟨w, signs, rfl, word, _, operators, reads⟩
    · rw [rest] at whole
      omega
    · rw [rest, ← length] at reads
      have text : tok.text ++ b = w ++ ['_'] ++ (signs ++ u) := by rw [← rest]; simp
      have same : tok.text = w ++ ['_'] := (List.append_inj text reads).1
      have word : w ≠ [] := by
        obtain ⟨_, _⟩ := word
        exact List.cons_ne_nil _ _
      exact ⟨w, signs, word, same, by simp [same], operators⟩
  · rintro ⟨w, signs, some, same, rfl, operators⟩
    have more : signs ≠ [] := by
      rintro rfl
      simp at longer
    have word : Plain w := by
      rcases names with quoted | plain
      · exact absurd (same ▸ quoted).close (by decide)
      · exact (same ▸ plain).front some
    have mixed := Identifier.mixed word more operators
    simpa [same] using mixed

theorem tokenizeIdentifierSetter :
    let text : Text := "x_=".toList
    let tok : Token := ⟨.identifier, ['x', '_'], 0, 0⟩
    tok ∈ tokenize text ∧ tok.kind = .identifier ∧ (Quoted tok.text ∨ Plain tok.text) ∧
      text <+: text.drop tok.start ∧ tok.text.length < text.length ∧ Identifier text := by
  intro text tok
  have member : tok ∈ tokenize text := by decide +kernel
  have longer : tok.text.length < text.length := by decide
  obtain ⟨names, reads⟩ := tokenizeIdentifier text tok member rfl
  have operators : ∀ c ∈ ['='], isOperatorChar c = true := List.forall_mem_singleton.mpr rfl
  have name : Identifier text :=
    (reads text List.prefix_rfl longer).mpr ⟨['x'], ['='], List.cons_ne_nil _ _, rfl, rfl, operators⟩
  exact ⟨member, rfl, names, List.prefix_rfl, longer, name⟩

theorem tokenizeIdentifierShort :
    ¬ ∀ (text : Text) (tok : Token), tok ∈ tokenize text → tok.kind = .identifier →
      ∀ x, x <+: text.drop tok.start → tok.text.length < x.length → ¬ Identifier x := by
  intro longest
  have word : Plain ['x'] := .mk (.inl rfl) (by simp)
  have name : Identifier "x_=".toList := .mixed word (List.cons_ne_nil '=' []) (List.forall_mem_singleton.mpr rfl)
  exact longest "x_=".toList ⟨.identifier, ['x', '_'], 0, 0⟩ (by decide +kernel) rfl _ List.prefix_rfl
    (by decide) name

end Indentation
