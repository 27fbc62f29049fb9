import Indentation.Proofs.Joined

/-! A carriage return behind a line. Most lexemes never take it. Line comments, open strings and block
comments and triple strings without their marks take it, and then they take all of the line without the
return as well, unless the line ends in a backslash, which would protect the return. -/
namespace Indentation.Shape
open Text

def Sparing (f : Shape) : Prop := ∀ l, f (l ++ ['\r']) ≤ l.length

/- Where a carriage return at the end is taken, all of the text before it is a lexeme by itself. -/
def Spreading (f : Shape) : Prop := ∀ l, l.getLast? ≠ some '\\' → l.length < f (l ++ ['\r']) → f l = l.length

variable {f g : Shape} {p : Char → Bool}

theorem nothingSparing : Sparing nothing := fun _ => Nat.zero_le _

theorem spanSparing (stops : p '\r' = false) : Sparing (span p) := by
  intro l
  unfold span
  rw [List.takeWhile_append]
  split
  · simp [stops]
  · exact (List.takeWhile_sublist p).length_le

theorem Sparing.lead (stops : p '\r' = false) (h : Sparing f) : Sparing (lead p f) := by
  intro l
  cases l with
  | nil => simp [Shape.lead, stops]
  | cons c l =>
    rw [List.cons_append, leadCons, List.length_cons]
    split
    · have rest := h l
      omega
    · exact Nat.zero_le _

theorem Sparing.headed (empty : f [] = 0) (h : Sparing f) : Sparing (headed p f) := by
  intro l
  cases l with
  | nil => simp [Shape.headed, empty]
  | cons c l =>
    rw [List.cons_append, headedCons, List.length_cons]
    split
    · have rest := h l
      omega
    · exact Nat.zero_le _

theorem Sparing.after (h : Sparing g) {l : Text} {k : Nat} (part : k ≤ l.length) :
    k + g ((l ++ ['\r']).drop k) ≤ l.length := by
  have rest := h (l.drop k)
  rw [List.length_drop] at rest
  rw [List.drop_append_of_le_length part]
  omega

theorem Sparing.led (empty : g [] = 0) (h : Sparing g) : Sparing (led f g) := by
  intro l
  unfold Shape.led
  split
  · exact Nat.zero_le _
  · rename_i some
    refine h.after ?_
    by_contra beyond
    rw [List.drop_of_length_le (by rw [List.length_append, List.length_singleton]; omega)] at some
    exact some empty

theorem Sparing.followed (hf : Sparing f) (hg : Sparing g) : Sparing (followed f g) := by
  intro l
  unfold Shape.followed
  split
  · exact Nat.zero_le _
  · exact hg.after (hf l)

theorem Sparing.orElse (hf : Sparing f) (hg : Sparing g) : Sparing (orElse f g) := by
  intro l
  unfold Shape.orElse
  split
  · exact hg l
  · exact hf l

theorem Greedy.spreading (h : Greedy f) : Spreading f := fun l _ taken =>
  (h l ['\r']).resolve_left (Nat.not_le_of_lt taken)

theorem throughGreedy (mark : Text) : Greedy (through mark) := by
  intro x u
  rcases throughSpec mark x with whole | ⟨y, v, rfl, _⟩
  · exact .inr whole
  · have bound := throughFound mark y (v ++ u)
    rw [← List.append_assoc] at bound
    exact .inl (Nat.le_trans bound (List.sublist_append_left _ v).length_le)

theorem lastDrop {l : Text} {d : Char} (last : l.getLast? ≠ some d) (k : Nat) : (l.drop k).getLast? ≠ some d := by
  rw [List.getLast?_drop]
  split
  · exact fun same => nomatch same
  · exact last

theorem lastTail {c d : Char} {l : Text} (last : (c :: l).getLast? ≠ some d) : l.getLast? ≠ some d :=
  lastDrop last 1

theorem Spreading.lead (h : Spreading f) : Spreading (lead p f) := by
  intro l last taken
  cases l with
  | nil => rfl
  | cons c l =>
    rw [List.cons_append, leadCons, List.length_cons] at taken
    split at taken
    · rename_i here
      rw [leadCons, if_pos here, h l (lastTail last) (by omega), List.length_cons, Nat.add_comm]
    · omega

theorem Spreading.headed (h : Spreading f) (alone : f ['\r'] = 0) : Spreading (headed p f) := by
  intro l last taken
  cases l with
  | nil => rfl
  | cons c l =>
    rw [List.cons_append, headedCons, List.length_cons] at taken
    split at taken
    · rename_i both
      have rest := h l (lastTail last) (by omega)
      have some : l ≠ [] := by
        rintro rfl
        exact both.2 alone
      have positive := List.length_pos_iff.mpr some
      rw [headedCons, if_pos ⟨both.1, by omega⟩, rest, List.length_cons, Nat.add_comm]
    · omega

theorem Spreading.orElse (steady : Steady f) (hf : Spreading f) (hg : Spreading g) (empty : g [] = 0) :
    Spreading (orElse f g) := by
  intro l last taken
  unfold Shape.orElse at taken ⊢
  split at taken
  · rename_i none
    rw [steady l ['\r'] (by omega), if_pos none]
    exact hg l last taken
  · have rest := hf l last taken
    split
    · rename_i none
      obtain rfl : l = [] := List.eq_nil_of_length_eq_zero (by omega)
      exact empty
    · exact rest

theorem Spreading.led (steady : Steady f) (spares : Sparing f) (h : Spreading g) (alone : g ['\r'] = 0) :
    Spreading (led f g) := by
  intro l last taken
  have part := spares l
  have front := steady l ['\r'] part
  unfold Shape.led at taken ⊢
  rw [List.drop_append_of_le_length part] at taken
  rw [front]
  split at taken
  · omega
  · rename_i some
    have rest := h _ (lastDrop last (f (l ++ ['\r']))) (by rw [List.length_drop]; omega)
    rw [List.length_drop] at rest
    have behind : f (l ++ ['\r']) ≠ l.length := by
      intro all
      rw [all, List.drop_length] at some
      exact some alone
    rw [if_neg (by omega), rest]
    omega

theorem stringTailWhole {l u : Text} (last : l.getLast? ≠ some '\\') (beyond : l.length < stringTail (l ++ u)) :
    stringTail l = l.length := by
  fun_induction stringTail l with
  | case1 => rfl
  | case2 cs => simp [stringTail] at beyond
  | case3 cs => simp [stringTail] at beyond
  | case4 => simp at last
  | case5 cs => simp [stringTail] at beyond
  | case6 c cs feed ih =>
    simp only [List.cons_append, stringTail, if_neg feed, List.length_cons] at beyond ⊢
    rw [ih (lastTail (lastTail last)) (by omega)]
    omega
  | case7 c cs quote feed lone escape ih =>
    have other : c ≠ '\\' := by
      intro same
      cases cs with
      | nil => exact lone same rfl
      | cons d ds => exact escape d ds same rfl
    rw [List.cons_append, stringTailOther quote feed other, List.length_cons] at beyond
    rw [ih (lastTail last) (by omega), List.length_cons, Nat.add_comm]

theorem stringTailSpreading : Spreading stringTail := fun _ => stringTailWhole

theorem wordSparing : Sparing word := wordEq ▸ (spanSparing (by decide)).lead (by decide)

theorem commentSpreading : Spreading comment :=
  commentEq ▸ ((spanGreedy _).spreading.lead.orElse (spanSteady _).lead (throughGreedy _).spreading.lead rfl).headed rfl

theorem tripleStringSpreading : Spreading tripleString :=
  tripleStringEq ▸ (((throughGreedy _).spreading.lead.headed rfl).headed rfl).led wordSteady wordSparing rfl

theorem stringSpreading : Spreading string :=
  stringEq ▸ stringTailSpreading.lead.led wordSteady wordSparing rfl

theorem characterSparing : Sparing character :=
  characterEq ▸ ((((nothingSparing.lead (by decide)).headed rfl).headed rfl).orElse
    ((nothingSparing.lead (by decide)).headed rfl)).headed rfl

theorem symbolSparing : Sparing symbol := symbolEq ▸ wordSparing.headed rfl

theorem hexadecimalSparing : Sparing hexadecimal :=
  hexadecimalEq ▸ ((spanSparing (by decide)).headed rfl).headed rfl

theorem fractionSparing : Sparing fraction := fractionEq ▸ (spanSparing (by decide)).headed rfl

theorem exponentSparing : Sparing exponent := exponentEq ▸ ((spanSparing (by decide)).led rfl).headed rfl

theorem decimalSparing : Sparing decimal :=
  decimalEq ▸ ((spanSparing (by decide)).followed fractionSparing).followed exponentSparing

theorem numberSparing : Sparing number :=
  numberEq ▸ (hexadecimalSparing.orElse decimalSparing).followed
    (typeLetterEq ▸ nothingSparing.lead (by decide))

theorem identifierSparing : Sparing identifier := by
  rw [identifierEq, quotedIdentifierEq, plainIdentifierEq]
  exact (((nothingSparing.lead (by decide)).led rfl).headed rfl).orElse
    ((spanSparing (by decide)).lead (by decide))

theorem operatorSparing : Sparing operator := spanSparing (by decide)

theorem allReturns : ∀ entry ∈ all, Sparing entry.2 ∨
    (entry.1 = .comment ∨ entry.1 = .string) ∧ Spreading entry.2 := by
  simp only [all, List.forall_mem_cons, List.not_mem_nil, false_imp_iff, implies_true, and_true]
  exact ⟨.inr ⟨.inl trivial, commentSpreading⟩, .inr ⟨.inr trivial, tripleStringSpreading⟩,
    .inr ⟨.inr trivial, stringSpreading⟩, .inl characterSparing, .inl numberSparing, .inl symbolSparing,
    .inl identifierSparing, .inl operatorSparing⟩

theorem findReturn {shapes : List (Kind × Shape)} {l : Text} {kind : Kind} {n : Nat}
    (steady : ∀ entry ∈ shapes, Steady entry.2)
    (returns : ∀ entry ∈ shapes, Sparing entry.2 ∨
      (entry.1 = .comment ∨ entry.1 = .string) ∧ Spreading entry.2)
    (last : l.getLast? ≠ some '\\') (text : l ≠ [])
    (found : (shapes.findSome? fun entry =>
      if entry.2 (l ++ ['\r']) = 0 then none else some (entry.1, entry.2 (l ++ ['\r']))) = some (kind, n))
    (beyond : l.length < n) :
    (kind = .comment ∨ kind = .string) ∧
      (shapes.findSome? fun entry => if entry.2 l = 0 then none else some (entry.1, entry.2 l)) =
        some (kind, l.length) := by
  induction shapes with
  | nil => contradiction
  | cons entry rest ih =>
    obtain ⟨here, later⟩ := List.forall_mem_cons.mp steady
    obtain ⟨either, returns⟩ := List.forall_mem_cons.mp returns
    rw [List.findSome?_cons] at found ⊢
    by_cases none : entry.2 (l ++ ['\r']) = 0
    · rw [if_pos none] at found
      rw [here l ['\r'] (by omega), if_pos none]
      exact ih later returns found
    · rw [if_neg none] at found
      cases found
      rcases either with spares | ⟨kinds, spreads⟩
      · exact absurd (spares l) (Nat.not_le_of_lt beyond)
      · have positive := List.length_pos_iff.mpr text
        have whole := spreads l last beyond
        rw [whole, if_neg (by omega)]
        exact ⟨kinds, rfl⟩

theorem firstReturn {l : Text} (text : l ≠ []) (feedless : '\n' ∉ l) (last : l.getLast? ≠ some '\\') :
    first (l ++ ['\r']) = first l ∨
      ((first l).1 = .comment ∨ (first l).1 = .string) ∧ (first l).2 = l.length ∧
        first (l ++ ['\r']) = ((first l).1, l.length + 1) := by
  by_cases within : (first (l ++ ['\r'])).2 ≤ l.length
  · exact .inl (firstSteady within).symm
  · have positive := List.length_pos_iff.mpr text
    have bound : (first (l ++ ['\r'])).2 ≤ (l ++ ['\r']).length :=
      firstLe (by rw [firstLineAppend feedless]; simp [text])
    have size : (first (l ++ ['\r'])).2 = l.length + 1 := by
      rw [List.length_append, List.length_singleton] at bound
      omega
    cases found : all.findSome? fun entry =>
        if entry.2 (l ++ ['\r']) = 0 then none else some (entry.1, entry.2 (l ++ ['\r'])) with
    | none =>
      have single : first (l ++ ['\r']) = (.unknown, 1) := by rw [first, found]; rfl
      rw [single] at size
      omega
    | some answer =>
      have taken : first (l ++ ['\r']) = answer := by rw [first, found]; rfl
      obtain ⟨kinds, whole⟩ := findReturn allSteady allReturns last text found (by rw [← taken, size]; omega)
      have alone : first l = (answer.1, l.length) := by rw [first, whole]; rfl
      rw [alone]
      exact .inr ⟨kinds, rfl, Prod.ext (by rw [taken]) size⟩

end Indentation.Shape
