import Indentation.Proofs.Gaps
import Indentation.Proofs.Levels
import Mathlib.Data.List.Nodup

/-! The matching of brackets. A closing bracket closes the innermost bracket that is open before it, and nothing
closes that one again. So pairs are nested, and the brackets that are open at a place are just those before it
that nothing before it closes. Their shapes do not matter, and the words may come in any order. -/
namespace Indentation

namespace Outline
variable {o : Outline} {b b' c c' g i j : Nat}

def Closes (o : Outline) (c b : Nat) : Prop := o.isClosing c = true ∧ o.enclosing? c = some b

/- A matching of brackets by place. Brackets that have no partner stay outside of all pairs: what is open is
closed before a bracket is left over. -/
structure Matched (o : Outline) : Prop where
  mutually : ∀ i j, o.partner? i = some j ↔ o.partner? j = some i
  shapes : ∀ i j, o.partner? i = some j →
    i < j ∧ o.isOpening i = true ∧ o.isClosing j = true ∨ j < i ∧ o.isOpening j = true ∧ o.isClosing i = true
  uncrossed : ∀ i j i' j', o.partner? i = some j → o.partner? i' = some j' → ¬ (i < i' ∧ i' < j ∧ j < j')
  leftOver : ∀ i, o.isClosing i = true → o.partner? i = none →
    ∀ b, b < i → o.isOpening b = true → ∃ c, o.partner? b = some c ∧ c < i

theorem wordWithin {P : Kind → Bool} (holds : (o.kind? i).any P = true) : i < o.size := by
  obtain ⟨_, kind, _⟩ := (Option.any_eq_true _ _).mp holds
  exact kindWithin kind

theorem openingOther (opening : o.isOpening i = true) : o.isClosing i = false := by
  obtain ⟨k, kind, opens⟩ := (Option.any_eq_true _ _).mp opening
  cases k <;> first | contradiction | simp [isClosing, kind, Kind.isClosing]

theorem closingOther (closing : o.isClosing i = true) : o.isOpening i = false :=
  Bool.eq_false_iff.mpr fun opening => by
    rw [openingOther opening] at closing
    contradiction

theorem closerFromCloses (found : o.closerFrom b j = some c) : j ≤ c ∧ o.Closes c b := by
  fun_induction closerFrom o b j with
  | case1 j within answers =>
    obtain rfl : j = c := Option.some.inj found
    rw [Bool.and_eq_true, beq_iff_eq] at answers
    exact ⟨Nat.le_refl j, answers⟩
  | case2 j within other ih =>
    obtain ⟨after, closes⟩ := ih found
    exact ⟨by omega, closes⟩
  | case3 j past => contradiction

namespace Stacked
variable (stacked : o.Stacked)
include stacked

theorem closesOpens (closes : o.Closes c b) : b < c ∧ o.isOpening b = true :=
  stacked.memberOpens (List.mem_of_head? closes.2)

theorem closesGone (closes : o.Closes c b) (inside : g ≤ o.size) (after : c < g) : b ∉ o.openAt g := by
  intro open_
  have before := (stacked.closesOpens closes).1
  have next := stacked.openBetween inside open_ (Nat.lt_succ_of_lt before) after
  rw [stacked.afterClosing closes.1, stacked.enclosed closes.2, List.tail_cons] at next
  exact Nat.lt_irrefl b (stacked.memberOpens next).1

theorem closesOnce (closes : o.Closes c b) (closes' : o.Closes c' b) : c = c' := by
  have last : ∀ {c c'}, o.Closes c b → o.Closes c' b → ¬ c < c' := by
    intro c c' first second before
    have inside := Nat.le_of_lt (wordWithin second.1)
    exact stacked.closesGone first inside before (List.mem_of_head? second.2)
  have low := last closes closes'
  have high := last closes' closes
  omega

theorem openOrClosed (inside : g ≤ o.size) (opening : o.isOpening b = true) (before : b < g)
    (gone : b ∉ o.openAt g) : ∃ c, c < g ∧ o.Closes c b := by
  have open_ : b ∈ o.openAt (b + 1) := stacked.afterOpening opening ▸ List.mem_cons_self
  obtain ⟨c, _, _, earlier, closes⟩ := stacked.closerFound inside open_ gone before
  exact ⟨c, earlier, closes⟩

theorem partnerOpening (opening : o.isOpening b = true) : o.partner? b = some c ↔ o.Closes c b := by
  have search : o.partner? b = o.closerFrom b (b + 1) := by
    rw [partner?, if_neg (by simp [openingOther opening]), closer?, if_pos opening]
    cases found : o.closerFrom b (b + 1) with
    | none => rfl
    | some d =>
      have after : b < d := (closerFromCloses found).1
      simp [after]
  rw [search]
  constructor
  · exact fun found => (closerFromCloses found).2
  · intro closes
    have past := stacked.closesGone closes (wordWithin closes.1) (Nat.lt_succ_self c)
    have open_ : b ∈ o.openAt (b + 1) := stacked.afterOpening opening ▸ List.mem_cons_self
    have before := (stacked.closesOpens closes).1
    obtain ⟨d, found, _⟩ := stacked.closerFound (wordWithin closes.1) open_ past (by omega)
    rw [found, stacked.closesOnce (closerFromCloses found).2 closes]

theorem partnerClosing (closing : o.isClosing c = true) : o.partner? c = some b ↔ o.Closes c b := by
  rw [partner?, if_pos closing, opener?, if_pos closing, Closes]
  cases encloses : o.enclosing? c with
  | none => simp
  | some d =>
    have before : d < c := (stacked.memberOpens (List.mem_of_head? encloses)).1
    simp [before, closing]

theorem partnerIff : o.partner? i = some j ↔ o.Closes i j ∨ o.Closes j i := by
  cases opening : o.isOpening i with
  | true =>
    rw [stacked.partnerOpening opening]
    have other : ¬ o.Closes i j := fun closes => by
      rw [Closes, openingOther opening] at closes
      exact absurd closes.1 (by simp)
    rw [or_iff_right other]
  | false =>
    have other : ¬ o.Closes j i := fun closes => by
      have opens := (stacked.closesOpens closes).2
      rw [opening] at opens
      contradiction
    rw [or_iff_left other]
    cases closing : o.isClosing i with
    | true => exact stacked.partnerClosing closing
    | false => simp [partner?, closer?, Closes, opening, closing]

theorem matched : o.Matched where
  mutually i j := by rw [stacked.partnerIff, stacked.partnerIff, or_comm]
  shapes i j found := by
    rcases stacked.partnerIff.mp found with closes | closes
    · obtain ⟨before, opens⟩ := stacked.closesOpens closes
      exact .inr ⟨before, opens, closes.1⟩
    · obtain ⟨before, opens⟩ := stacked.closesOpens closes
      exact .inl ⟨before, opens, closes.1⟩
  uncrossed i j i' j' found found' := by
    rintro ⟨first, second, third⟩
    -- both pairs are closed by their second words
    have closes : o.Closes j i := (stacked.partnerIff.mp found).resolve_left fun closes => by
      have before := (stacked.closesOpens closes).1
      omega
    have closes' : o.Closes j' i' := (stacked.partnerIff.mp found').resolve_left fun closes => by
      have before := (stacked.closesOpens closes).1
      omega
    -- the second bracket is still open inside of the first pair, so it is not above the first bracket
    have open_ := stacked.openBetween (Nat.le_of_lt (wordWithin closes'.1)) (List.mem_of_head? closes'.2) second
      (Nat.le_of_lt third)
    rw [stacked.enclosed closes.2] at open_
    rcases List.mem_cons.mp open_ with same | below
    · omega
    · have before := (stacked.memberOpens below).1
      omega
  leftOver i closing alone b before opening := by
    have none : o.openAt i = [] := by
      rw [← List.head?_eq_none_iff]
      refine Option.eq_none_iff_forall_ne_some.mpr fun d encloses => ?_
      rw [(stacked.partnerClosing closing).mpr ⟨closing, encloses⟩] at alone
      contradiction
    obtain ⟨c, earlier, closes⟩ := stacked.openOrClosed (Nat.le_of_lt (wordWithin closing)) opening before
      (by simp [none])
    exact ⟨c, (stacked.partnerOpening opening).mpr closes, earlier⟩

theorem openIff (inside : g ≤ o.size) :
    b ∈ o.openAt g ↔ o.isOpening b = true ∧ b < g ∧ ∀ c ∈ o.partner? b, g ≤ c := by
  constructor
  · intro open_
    obtain ⟨before, opening⟩ := stacked.memberOpens open_
    refine ⟨opening, before, fun c partner => ?_⟩
    by_contra earlier
    exact stacked.closesGone ((stacked.partnerOpening opening).mp partner) inside (by omega) open_
  · rintro ⟨opening, before, later⟩
    by_contra gone
    obtain ⟨c, earlier, closes⟩ := stacked.openOrClosed inside opening before gone
    have reach := later c ((stacked.partnerOpening opening).mpr closes)
    omega

theorem openOrdered (g : Nat) : (o.openAt g).Pairwise fun x y => y < x := by
  induction g using Nat.strongRecOn with
  | ind g ih =>
    cases stack : o.openAt g with
    | nil => exact .nil
    | cons b rest =>
      have encloses : o.enclosing? g = some b := by rw [enclosing?, stack, List.head?_cons]
      have whole := stacked.enclosed encloses
      rw [stack] at whole
      obtain rfl : rest = o.openAt b := (List.cons.inj whole).2
      have before := (stacked.memberOpens (List.mem_of_head? encloses)).1
      exact .cons (fun d below => (stacked.memberOpens below).1) (ih b before)

theorem enclosingIff : o.enclosing? g = some b ↔ b ∈ o.openAt g ∧ ∀ d ∈ o.openAt g, d ≤ b := by
  rw [enclosing?]
  have ordered := stacked.openOrdered g
  cases stack : o.openAt g with
  | nil => simp
  | cons d rest =>
    rw [stack] at ordered
    have below := (List.pairwise_cons.mp ordered).1
    rw [List.head?_cons, Option.some.injEq]
    constructor
    · rintro rfl
      refine ⟨List.mem_cons_self, fun e member => ?_⟩
      rcases List.mem_cons.mp member with rfl | deeper
      · exact Nat.le_refl e
      · exact Nat.le_of_lt (below e deeper)
    · rintro ⟨member, greatest⟩
      rcases List.mem_cons.mp member with same | deeper
      · exact same.symm
      · have less := below b deeper
        have reach := greatest d List.mem_cons_self
        omega

theorem openCount {n : Nat} (inside : g ≤ n) :
    (o.openAt g).length = (List.range n).countP fun b => decide (b ∈ o.openAt g) := by
  have distinct : (o.openAt g).Nodup := (stacked.openOrdered g).imp fun before => Ne.symm (Nat.ne_of_lt before)
  rw [List.countP_eq_length_filter]
  refine List.Perm.length_eq ((List.perm_ext_iff_of_nodup distinct (List.nodup_range.filter _)).mpr fun b => ?_)
  rw [List.mem_filter, List.mem_range, decide_eq_true_iff]
  constructor
  · intro open_
    have before := (stacked.memberOpens open_).1
    exact ⟨by omega, open_⟩
  · exact And.right

end Stacked
end Outline

namespace Source
variable {t : Text} {b i p : Nat}

def StillOpen (s : Source) (p b : Nat) : Prop :=
  s.outline.isOpening b = true ∧ s.startOf b < p ∧ ∀ c ∈ s.outline.partner? b, p ≤ s.startOf c

instance (s : Source) (p b : Nat) : Decidable (s.StillOpen p b) :=
  inferInstanceAs (Decidable (_ ∧ _ ∧ ∀ c ∈ s.outline.partner? b, p ≤ s.startOf c))

theorem startIff (inside : i < (ofText t).outline.size) : (ofText t).startOf i < p ↔ i < (ofText t).rank p := by
  rw [outlineSize] at inside
  have found : (ofText t).code[i]? = some (ofText t).code[i] := Array.getElem?_eq_getElem inside
  rw [startOfEq found, rankCut found]

theorem stillOpenIff : (ofText t).StillOpen p b ↔ b ∈ (ofText t).outline.openAt ((ofText t).rank p) := by
  have stacked : (ofText t).outline.Stacked := Outline.ofWordsStacked _ _
  rw [stacked.openIff (rankInside t p), StillOpen]
  refine and_congr_right fun opening => and_congr (startIff (Outline.wordWithin opening)) ?_
  refine forall₂_congr fun c partner => ?_
  have closes := (stacked.partnerOpening opening).mp partner
  have start := startIff (t := t) (p := p) (Outline.wordWithin closes.1)
  omega

theorem bracketsNested (text : Text) :
    (∀ tokens, (ofTokens text tokens).outline.Matched) ∧
      let s := ofText text
      ∀ p,
        (∀ b, s.enclosing? p = some b ↔ s.StillOpen p b ∧ ∀ b', s.StillOpen p b' → b' ≤ b) ∧
        (s.enclosing? p = none ↔ ∀ b, ¬ s.StillOpen p b) ∧
        s.depth p = (List.range s.code.size).countP (fun b => s.StillOpen p b) ∧
        match s.enclosing? p with
        | none => s.depth p = 0
        | some b => s.startOf b < p ∧ s.depth p = s.depth (s.startOf b) + 1 := by
  refine ⟨fun tokens => (Outline.ofWordsStacked _ _).matched, ?_⟩
  intro s p
  have stacked : s.outline.Stacked := Outline.ofWordsStacked _ _
  have still : ∀ b, s.StillOpen p b ↔ b ∈ s.outline.openAt (s.rank p) := fun b => stillOpenIff
  refine ⟨fun b => ?_, ?_, ?_, ?_⟩
  · simp only [still]
    exact stacked.enclosingIff
  · simp only [still]
    rw [enclosing?, Outline.enclosing?, List.head?_eq_none_iff, List.eq_nil_iff_forall_not_mem]
  · simp only [still]
    exact stacked.openCount (rankLe text p)
  · cases encloses : s.enclosing? p with
    | none => rw [depth, List.head?_eq_none_iff.mp encloses, List.length_nil]
    | some b =>
      have stack := stacked.enclosed encloses
      have open_ := (still b).mpr (List.mem_of_head? encloses)
      have rank : s.rank (s.startOf b) = b := rankWord (outlineSize text ▸ Outline.wordWithin open_.1)
      refine ⟨open_.2.1, ?_⟩
      rw [depth, stack, List.length_cons, depth, rank]

example :
    let o := (ofText ")([\x7d)(".toList).outline
    (List.range 6).map o.partner? = [none, some 4, some 3, some 2, some 1, none] := by decide +kernel

end Source
end Indentation
