import Indentation.Proofs.Shapes.Forms

/-! How far a lexeme looks. Block comments and triple strings read up to their closing mark; every
other shape sees nothing beyond the end of its line, so a text and its first line give it the same
answer, and the lexeme ends on that line. No lexeme looks behind its own end. -/
namespace Indentation.Shape
open Text

inductive Opening : Kind → Text → Text → Prop where
  | block : Opening .comment ['/', '*'] ['*', '/']
  | triple {w : Text} (whole : word w = w.length) :
      Opening .string (w ++ ['"', '"', '"']) ['"', '"', '"']

def Opens (t : Text) : Prop := ∃ kind front mark cs, Opening kind front mark ∧ t = front ++ cs

theorem wordParts {c : Char} {w : Text} (whole : word (c :: w) = (c :: w).length) :
    isWordStart c = true ∧ w.takeWhile isWordChar = w := by
  simp only [word, List.length_cons] at whole
  split at whole
  · rename_i start
    have length : (w.takeWhile isWordChar).length = w.length := by unfold span at whole; omega
    exact ⟨start, (List.takeWhile_prefix _).eq_of_length length⟩
  · omega

theorem wordFree {w : Text} (whole : word w = w.length) {d : Char} (start : isWordStart d = false)
    (other : isWordChar d = false) : d ∉ w := by
  intro member
  cases w with
  | nil => contradiction
  | cons c w =>
    obtain ⟨first, rest⟩ := wordParts whole
    rcases List.mem_cons.mp member with rfl | later
    · rw [start] at first
      contradiction
    · have inside := List.takeWhile_eq_self_iff.mp rest d later
      rw [other] at inside
      contradiction

theorem wordQuote {w : Text} (whole : word w = w.length) (cs : Text) : word (w ++ '"' :: cs) = w.length := by
  cases w with
  | nil => rfl
  | cons c w =>
    obtain ⟨start, rest⟩ := wordParts whole
    rw [List.cons_append, word, if_pos start, span, List.takeWhile_append, if_pos (by rw [rest])]
    simp [(by decide : isWordChar '"' = false), Nat.add_comm]

theorem firstOfBlock (cs : Text) :
    first ('/' :: '*' :: cs) = (.comment, 2 + through ['*', '/'] cs) := by
  simp [first, all, comment]

theorem commentOther {t cs : Text} (quote : t.drop (word t) = '"' :: cs) : comment t = 0 := by
  cases t with
  | nil => rfl
  | cons c t =>
    have slash : c ≠ '/' := by
      rintro rfl
      simp [word, isWordStart, isAsciiLetter] at quote
    simp [comment, slash]

theorem firstOfTriple {t cs : Text} (opens : t.drop (word t) = '"' :: '"' :: '"' :: cs) :
    first t = (.string, word t + 3 + through ['"', '"', '"'] cs) := by
  simp [first, all, commentOther opens, tripleString, opens]

namespace Opening
variable {kind : Kind} {front mark : Text}

theorem first (opens : Opening kind front mark) (cs : Text) :
    Shape.first (front ++ cs) = (kind, front.length + through mark cs) := by
  cases opens with
  | block =>
    rw [List.length_cons, List.length_singleton]
    exact firstOfBlock cs
  | @triple w whole =>
    have measured := wordQuote whole ('"' :: '"' :: cs)
    have text : w ++ ['"', '"', '"'] ++ cs = w ++ '"' :: '"' :: '"' :: cs := by simp
    have rest : (w ++ '"' :: '"' :: '"' :: cs).drop (word (w ++ '"' :: '"' :: '"' :: cs)) =
        '"' :: '"' :: '"' :: cs := by
      rw [measured, List.drop_left]
    rw [text, firstOfTriple rest, measured, List.length_append]
    rfl

theorem feedless (opens : Opening kind front mark) : '\n' ∉ front := by
  cases opens with
  | block => decide
  | triple whole =>
    have word := wordFree (d := '\n') whole (by decide) (by decide)
    simp [word]

theorem closing (opens : Opening kind front mark) :
    (kind = .comment ∨ kind = .string) ∧ (∀ c ∈ mark, isBlank c = false) ∧
      (∃ m ms, mark = m :: ms) ∧ ∃ y c, mark = y ++ [c] := by
  cases opens with
  | block => exact ⟨.inl rfl, by simp [isBlank], ⟨'*', ['/'], rfl⟩, ['*'], '/', rfl⟩
  | triple whole => exact ⟨.inr rfl, by simp [isBlank], ⟨'"', ['"', '"'], rfl⟩, ['"', '"'], '"', rfl⟩

end Opening

theorem Opens.congr {t t' : Text} (line : firstLine t' = firstLine t) (opens : Opens t') : Opens t := by
  obtain ⟨kind, front, mark, cs, opening, rfl⟩ := opens
  rw [firstLineAppend opening.feedless] at line
  obtain ⟨r, rfl⟩ := firstLineStarts line.symm
  exact ⟨kind, front, mark, r, opening, rfl⟩

theorem commentLine {t : Text} (plain : ¬ Opens t) : comment t ≤ (firstLine t).length := by
  fun_cases comment t with
  | case1 cs =>
    have bound : span (· != '\n') cs ≤ (firstLine cs).length := spanBefore (by decide) cs
    rw [firstLineCons (by decide), firstLineCons (by decide), List.length_cons, List.length_cons]
    omega
  | case2 cs => exact absurd ⟨_, _, _, cs, .block, rfl⟩ plain
  | case3 t line _ => exact Nat.zero_le _

theorem tripleStringLine {t : Text} (plain : ¬ Opens t) : tripleString t ≤ (firstLine t).length := by
  unfold tripleString
  split
  · rename_i cs quotes
    have split := (List.take_append_drop (word t) t).symm
    rw [quotes] at split
    have length : (t.take (word t)).length = word t := by
      have line : (firstLine t).length ≤ t.length := (List.takeWhile_sublist _).length_le
      have inside : word t ≤ (firstLine t).length := wordBefore (by decide) t
      rw [List.length_take]
      omega
    have whole : word (t.take (word t)) = (t.take (word t)).length := by
      have steady := wordSteady (t.take (word t)) ('"' :: '"' :: '"' :: cs)
      rw [← split, length] at steady
      rw [steady (Nat.le_refl _), length]
    exact absurd ⟨_, _, _, cs, .triple whole, by simpa using split⟩ plain
  · exact Nat.zero_le _

theorem firstOfAnswers (t : Text) :
    first t = ((all.map fun entry => (entry.1, entry.2 t)).findSome? fun answer =>
      if answer.2 = 0 then none else some answer).getD (.unknown, 1) := by
  rw [List.findSome?_map]
  rfl

theorem firstShape (t : Text) :
    (∃ f, ((first t).1, f) ∈ all ∧ (first t).2 = f t ∧ f t ≠ 0) ∨ first t = (.unknown, 1) := by
  unfold first
  cases found : all.findSome? fun entry =>
      if entry.2 t = 0 then none else some (entry.1, entry.2 t) with
  | none => exact .inr rfl
  | some result =>
    obtain ⟨⟨kind, f⟩, member, fits⟩ := List.exists_of_findSome?_eq_some found
    dsimp only at fits
    split at fits
    · contradiction
    · rename_i some
      cases Option.some.inj fits
      exact .inl ⟨f, member, rfl, some⟩

theorem firstSteady {x u : Text} (inside : (first (x ++ u)).2 ≤ x.length) : first x = first (x ++ u) := by
  have shapes := allSteady
  unfold first at inside ⊢
  generalize all = shapes' at inside shapes ⊢
  induction shapes' with
  | nil => rfl
  | cons entry rest ih =>
    obtain ⟨here, later⟩ := List.forall_mem_cons.mp shapes
    rw [List.findSome?_cons, List.findSome?_cons] at *
    by_cases none : entry.2 (x ++ u) = 0
    · have same := here x u (by omega)
      rw [none] at same
      rw [if_pos none] at inside
      rw [if_pos none, if_pos same]
      exact ih inside later
    · rw [if_neg none] at inside
      have same := here x u inside
      rw [if_neg none, if_neg (by rwa [same]), same]

theorem firstLocal {t : Text} (plain : ¬ Opens t) :
    first (firstLine t) = first t ∧
      (firstLine t ≠ [] → (first t).2 ≤ (firstLine t).length) := by
  have bounds : ∀ entry ∈ all, entry.2 t ≤ (firstLine t).length := by
    simp only [all, List.forall_mem_cons, List.not_mem_nil, false_imp_iff, implies_true, and_true]
    exact ⟨commentLine plain, tripleStringLine plain, stringInline t, characterInline t,
      numberBefore (by decide) t, symbolBefore (by decide) t, identifierInline t, operatorInline t⟩
  constructor
  · have answers : all.map (fun entry => (entry.1, entry.2 (firstLine t))) =
        all.map (fun entry => (entry.1, entry.2 t)) :=
      List.map_congr_left fun entry member => by
        rw [(allSteady entry member).onLine (bounds entry member)]
    rw [firstOfAnswers, firstOfAnswers, answers]
  · intro some
    rcases firstShape t with ⟨f, member, length, _⟩ | unknown
    · rw [length]
      exact bounds _ member
    · rw [unknown]
      exact List.length_pos_iff.mpr some

theorem throughSpec (mark t : Text) :
    through mark t = t.length ∨
      ∃ x u, t = x ++ mark ++ u ∧ through mark t = (x ++ mark).length := by
  induction t with
  | nil => exact .inl rfl
  | cons c cs ih =>
    rw [through]
    split
    · rename_i found
      obtain ⟨u, split⟩ := List.isPrefixOf_iff_prefix.mp found
      exact .inr ⟨[], u, by simpa using split.symm, by simp⟩
    · rcases ih with whole | ⟨x, u, split, length⟩
      · exact .inl (by rw [whole, List.length_cons, Nat.add_comm])
      · exact .inr ⟨c :: x, u, by rw [split]; simp, by rw [length]; simp [Nat.add_comm]⟩

theorem throughSkip {m : Char} (ms : Text) {w : Text} (absent : ∀ c ∈ w, c ≠ m) (t : Text) :
    through (m :: ms) (w ++ t) = w.length + through (m :: ms) t := by
  induction w with
  | nil => simp
  | cons c w ih =>
    have other : m ≠ c := Ne.symm (absent c (by simp))
    have rest := ih fun d mem => absent d (by simp [mem])
    simp only [List.cons_append, through, List.isPrefixOf_cons_cons, beq_eq_false_iff_ne.mpr other,
      Bool.false_and, Bool.false_eq_true, if_false, rest, List.length_cons]
    omega

theorem throughLe (mark t : Text) : through mark t ≤ t.length := by
  rcases throughSpec mark t with whole | ⟨x, u, split, length⟩
  · omega
  · have total := congrArg List.length split
    rw [List.length_append] at total
    omega

/- A lexeme is read up to a mark, or it is settled by the first line and other texts with that first
line are read the same way. -/
theorem firstCases (t : Text) :
    (∃ kind front mark cs, Opening kind front mark ∧ t = front ++ cs) ∨
    ((firstLine t ≠ [] → (first t).2 ≤ (firstLine t).length) ∧
      ∀ t', firstLine t' = firstLine t → first t' = first t) := by
  by_cases opens : Opens t
  · exact .inl opens
  · have here := firstLocal opens
    refine .inr ⟨here.2, fun t' line => ?_⟩
    have there := firstLocal (t := t') fun opens' => opens (opens'.congr line)
    rw [← there.1, line, here.1]

theorem firstPositive (t : Text) : 1 ≤ (first t).2 := by
  rcases firstShape t with ⟨f, _, length, some⟩ | unknown
  · omega
  · simp [unknown]

theorem firstLe {t : Text} (some : firstLine t ≠ []) : (first t).2 ≤ t.length := by
  rcases firstCases t with ⟨kind, front, mark, cs, opens, rfl⟩ | ⟨inside, _⟩
  · have bound := throughLe mark cs
    rw [opens.first, List.length_append]
    omega
  · have line : (firstLine t).length ≤ t.length := (List.takeWhile_sublist _).length_le
    exact Nat.le_trans (inside some) line

theorem firstMultiline {t : Text} (some : firstLine t ≠ []) (feed : '\n' ∈ t.take (first t).2) :
    ((first t).1 = .comment ∨ (first t).1 = .string) ∧
      ((first t).2 = t.length ∨ ∃ y c, t.take (first t).2 = y ++ [c] ∧ isBlank c = false) := by
  rcases firstCases t with ⟨kind, front, mark, cs, opens, rfl⟩ | ⟨inside, _⟩
  · obtain ⟨kinds, visible, _, y, c, last⟩ := opens.closing
    rw [opens.first]
    refine ⟨kinds, ?_⟩
    rcases throughSpec mark cs with whole | ⟨z, u, split, length⟩
    · exact .inl (by rw [whole, List.length_append])
    · refine .inr ⟨front ++ z ++ y, c, ?_, visible c (by simp [last])⟩
      dsimp only
      rw [List.take_length_add_append, length, split, List.take_left, last]
      simp
  · rw [← firstLineTake (inside some)] at feed
    exact absurd (List.mem_of_mem_take feed) (firstLineFeedless t)

end Indentation.Shape
