import Indentation.Proofs.Places

/-! Shapes put together from smaller ones. Two things are kept by the ways of putting shapes together:
the text behind a lexeme does not matter to it, and the lexeme ends before some character, be it the
line feed. -/
namespace Indentation.Shape
open Text

/- Cutting the text off behind the lexeme, or further on, leaves the lexeme as it is. -/
def Steady (f : Shape) : Prop := ∀ x u, f (x ++ u) ≤ x.length → f x = f (x ++ u)

/- Cutting the text off inside the lexeme leaves all of the text in the lexeme. -/
def Greedy (f : Shape) : Prop := ∀ x u, f (x ++ u) ≤ x.length ∨ f x = x.length

def Before (m : Char) (f : Shape) : Prop := ∀ t, f t ≤ (t.takeWhile (· != m)).length

def Inline (f : Shape) : Prop := ∀ t, f t ≤ (firstLine t).length

def nothing : Shape := fun _ => 0

def lead (p : Char → Bool) (f : Shape) : Shape
  | [] => 0
  | c :: cs => if p c then 1 + f cs else 0

def headed (p : Char → Bool) (f : Shape) : Shape
  | [] => 0
  | c :: cs => if p c ∧ f cs ≠ 0 then 1 + f cs else 0

def led (f g : Shape) : Shape := fun t =>
  if g (t.drop (f t)) = 0 then 0 else f t + g (t.drop (f t))

def followed (f g : Shape) : Shape := fun t => if f t = 0 then 0 else f t + g (t.drop (f t))

def orElse (f g : Shape) : Shape := fun t => if f t = 0 then g t else f t

variable {f g : Shape} {p : Char → Bool}

theorem leadCons (c : Char) (t : Text) : lead p f (c :: t) = if p c then 1 + f t else 0 := rfl

theorem headedCons (c : Char) (t : Text) :
    headed p f (c :: t) = if p c ∧ f t ≠ 0 then 1 + f t else 0 := rfl

theorem Steady.ofCons (empty : f [] = 0)
    (cons : ∀ c x u, f (c :: (x ++ u)) ≤ x.length + 1 → f (c :: x) = f (c :: (x ++ u))) : Steady f := by
  intro x u inside
  cases x with
  | nil =>
    rw [List.nil_append, List.length_nil, Nat.le_zero] at inside
    rw [List.nil_append, empty, inside]
  | cons c x => exact cons c x u inside

theorem Steady.after (h : Steady f) {x u : Text} {k : Nat} (part : k ≤ x.length)
    (inside : k + f ((x ++ u).drop k) ≤ x.length) : f (x.drop k) = f ((x ++ u).drop k) := by
  rw [List.drop_append_of_le_length part] at inside ⊢
  exact h _ u (by rw [List.length_drop]; omega)

theorem nothingSteady : Steady nothing := fun _ _ _ => rfl

theorem spanSteady (p : Char → Bool) : Steady (span p) := by
  intro x u inside
  unfold span at inside ⊢
  rw [List.takeWhile_append] at inside ⊢
  split
  · rename_i whole
    rw [if_pos whole, List.length_append] at inside
    rw [List.length_append, whole]
    omega
  · rfl

theorem throughSteady (mark : Text) : Steady (through mark) := by
  intro x u inside
  induction x with
  | nil =>
    rw [List.nil_append, List.length_nil, Nat.le_zero] at inside
    rw [List.nil_append, inside]
    rfl
  | cons c x ih =>
    rw [List.cons_append] at inside ⊢
    unfold through at inside ⊢
    by_cases found : mark.isPrefixOf (c :: x) = true
    · have longer : mark.isPrefixOf (c :: (x ++ u)) = true := by
        rw [List.isPrefixOf_iff_prefix] at found ⊢
        exact found.trans (List.prefix_append (c :: x) u)
      rw [if_pos found, if_pos longer]
    · have neither : ¬ mark.isPrefixOf (c :: (x ++ u)) = true := by
        intro longer
        rw [if_pos longer] at inside
        rw [List.isPrefixOf_iff_prefix] at found longer
        exact found (List.prefix_of_prefix_length_le longer (List.prefix_append (c :: x) u) inside)
      rw [if_neg found, if_neg neither] at *
      rw [ih (by rw [List.length_cons] at inside; omega)]

theorem Steady.lead (h : Steady f) : Steady (lead p f) := by
  refine .ofCons rfl fun c x u inside => ?_
  rw [leadCons] at inside ⊢
  by_cases here : p c = true
  · rw [if_pos here] at inside ⊢
    rw [leadCons, if_pos here, h x u (by omega)]
  · rw [leadCons, if_neg here, if_neg here]

theorem Steady.headed (h : Steady f) : Steady (headed p f) := by
  refine .ofCons rfl fun c x u inside => ?_
  rw [headedCons] at inside
  rw [headedCons, headedCons]
  by_cases within : f (x ++ u) ≤ x.length
  · rw [h x u within]
  · have other : ¬ p c = true := by
      intro here
      rw [if_pos ⟨here, by omega⟩] at inside
      omega
    rw [if_neg (other ·.1), if_neg (other ·.1)]

theorem Steady.led (hf : Steady f) (whole : Greedy f) (hg : Steady g) (empty : g [] = 0) :
    Steady (led f g) := by
  intro x u inside
  unfold Shape.led at inside ⊢
  by_cases within : f (x ++ u) ≤ x.length
  · have front := hf x u within
    by_cases none : g ((x ++ u).drop (f (x ++ u))) = 0
    · have rest : g (x.drop (f (x ++ u))) = _ := hg.after (u := u) within (by omega)
      rw [front, rest]
    · rw [if_neg none] at inside
      have rest : g (x.drop (f (x ++ u))) = _ := hg.after (u := u) within inside
      rw [front, rest]
  · rw [(whole x u).resolve_left within, List.drop_length, empty, if_pos rfl]
    split
    · rfl
    · rename_i some
      rw [if_neg some] at inside
      omega

theorem Steady.followed (hf : Steady f) (hg : Steady g) : Steady (followed f g) := by
  intro x u inside
  unfold Shape.followed at inside ⊢
  by_cases none : f (x ++ u) = 0
  · rw [hf x u (by omega), none]
    rfl
  · rw [if_neg none] at inside
    rw [hf x u (by omega), hg.after (by omega) inside]

theorem Steady.orElse (hf : Steady f) (hg : Steady g) : Steady (orElse f g) := by
  intro x u inside
  unfold Shape.orElse at inside ⊢
  by_cases none : f (x ++ u) = 0
  · rw [if_pos none] at inside
    rw [hf x u (by omega), none, hg x u inside]
  · rw [if_neg none] at inside
    rw [hf x u inside]
    simp [none]

theorem nothingGreedy : Greedy nothing := fun _ _ => .inl (Nat.zero_le _)

theorem spanGreedy (p : Char → Bool) : Greedy (span p) := by
  intro x u
  unfold span
  rw [List.takeWhile_append]
  split
  · rename_i whole
    exact .inr whole
  · exact .inl (List.takeWhile_sublist p).length_le

theorem Greedy.lead (h : Greedy f) : Greedy (lead p f) := by
  intro x u
  cases x with
  | nil => exact .inr rfl
  | cons c x =>
    rw [List.cons_append, leadCons, leadCons, List.length_cons]
    by_cases here : p c = true
    · rw [if_pos here, if_pos here]
      have rest := h x u
      omega
    · rw [if_neg here]
      exact .inl (Nat.zero_le _)

theorem firstLineStarts {t x r : Text} (split : firstLine t = x ++ r) : ∃ r', t = x ++ r' := by
  rcases firstLineSplit t with same | ⟨u, same⟩
  · exact ⟨r, by rw [same, split]⟩
  · exact ⟨r ++ '\n' :: u, by rw [same, split, List.append_assoc]⟩

theorem firstLineTake {t : Text} {k : Nat} (inside : k ≤ (firstLine t).length) :
    (firstLine t).take k = t.take k := by
  rcases firstLineSplit t with same | ⟨u, split⟩
  · rw [← same]
  · rw [← List.take_append_of_le_length inside, ← split]

theorem takeWhileDrop {t : Text} {k : Nat} (inside : k ≤ (t.takeWhile p).length) :
    (t.takeWhile p).drop k = (t.drop k).takeWhile p := by
  induction k generalizing t with
  | zero => rfl
  | succ k ih =>
    cases t with
    | nil => rfl
    | cons c t =>
      by_cases here : p c = true
      · rw [List.takeWhile_cons_of_pos here] at inside ⊢
        exact ih (Nat.le_of_succ_le_succ inside)
      · rw [List.takeWhile_cons_of_neg here] at inside
        contradiction

theorem firstLineDrop {t : Text} {k : Nat} (inside : k ≤ (firstLine t).length) :
    (firstLine t).drop k = firstLine (t.drop k) := takeWhileDrop inside

theorem Steady.onLine (h : Steady f) {t : Text} (inside : f t ≤ (firstLine t).length) :
    f (firstLine t) = f t := by
  rcases firstLineSplit t with same | ⟨u, split⟩
  · rw [← same]
  · rw [split] at inside ⊢
    rw [firstLineAppend (firstLineFeedless t), firstLineFeed, List.append_nil] at inside ⊢
    exact h _ _ inside

variable {m : Char}

theorem Before.after (h : Before m f) {t : Text} {k : Nat} (part : k ≤ (t.takeWhile (· != m)).length) :
    k + f (t.drop k) ≤ (t.takeWhile (· != m)).length := by
  have rest := h (t.drop k)
  rw [← takeWhileDrop part, List.length_drop] at rest
  omega

theorem nothingBefore : Before m nothing := fun _ => Nat.zero_le _

theorem spanBefore (stops : p m = false) : Before m (span p) := by
  intro t
  have front : t.takeWhile p = (t.takeWhile (· != m)).takeWhile p := by
    rw [List.takeWhile_takeWhile]
    congr 1
    funext c
    by_cases same : c = m <;> simp [same, stops]
  unfold span
  rw [front]
  exact (List.takeWhile_sublist p).length_le

theorem Before.lead (stops : p m = false) (h : Before m f) : Before m (lead p f) := by
  intro t
  cases t with
  | nil => exact Nat.zero_le _
  | cons c t =>
    rw [leadCons]
    split
    · rename_i here
      have other : c ≠ m := by
        rintro rfl
        rw [stops] at here
        contradiction
      have rest := h t
      rw [List.takeWhile_cons_of_pos (p := (· != m)) (bne_iff_ne.mpr other), List.length_cons]
      omega
    · exact Nat.zero_le _

theorem Before.headed (stops : p m = false) (h : Before m f) : Before m (headed p f) := by
  intro t
  cases t with
  | nil => exact Nat.zero_le _
  | cons c t =>
    have leading := Before.lead stops h (c :: t)
    rw [leadCons] at leading
    rw [headedCons]
    split
    · rename_i both
      rwa [if_pos both.1] at leading
    · exact Nat.zero_le _

theorem Before.led (hf : Before m f) (hg : Before m g) : Before m (led f g) := by
  intro t
  unfold Shape.led
  split
  · exact Nat.zero_le _
  · exact hg.after (hf t)

theorem Before.followed (hf : Before m f) (hg : Before m g) : Before m (followed f g) := by
  intro t
  unfold Shape.followed
  split
  · exact Nat.zero_le _
  · exact hg.after (hf t)

theorem Before.orElse (hf : Before m f) (hg : Before m g) : Before m (orElse f g) := by
  intro t
  unfold Shape.orElse
  split
  · exact hg t
  · exact hf t

end Indentation.Shape
