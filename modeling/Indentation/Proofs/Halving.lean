import Indentation.Proofs.Gaps

/-! Search by halving. In an ordered table the entries below a bound stand in front, and halving finds how many they
are. The starts of lines, of tokens and of code tokens are such tables, and the lookups by offset rest on these
three counts. -/
namespace Indentation

namespace Halving
variable {table : Array Nat} {passes : Nat → Bool}

def search (table : Array Nat) (passes : Nat → Bool) (low high : Nat) (bound : high ≤ table.size) : Nat :=
  if _ : low < high then
    let middle := (low + high) / 2
    if passes table[middle] then search table passes (middle + 1) high bound
    else search table passes low middle (by omega)
  else low
termination_by high - low

def left (table : Array Nat) (x : Nat) : Nat := search table (· < x) 0 table.size (Nat.le_refl _)

def right (table : Array Nat) (x : Nat) : Nat := search table (· ≤ x) 0 table.size (Nat.le_refl _)

theorem searchCount (down : table.toList.Pairwise fun x y => passes y = true → passes x = true) (low high : Nat)
    (bound : high ≤ table.size) (above : low ≤ table.countP passes) (below : table.countP passes ≤ high) :
    search table passes low high bound = table.countP passes := by
  have cut : ∀ m (inside : m < table.size), passes table[m] = true ↔ m < table.countP passes := by
    intro m inside
    rw [← Array.countP_toList]
    exact pairwiseCut down (by simp [inside])
  -- the count stays between the two places
  fun_induction search table passes low high bound with
  | case1 low high bound between middle pass ih =>
    have early := (cut middle (by omega)).mp pass
    exact ih early below
  | case2 low high bound between middle fail ih =>
    have late := mt (cut middle (by omega)).mpr fail
    exact ih above (by omega)
  | case3 low high bound met => omega

theorem leftCount (ordered : table.toList.Pairwise (· ≤ ·)) (x : Nat) : left table x = table.countP (· < x) := by
  refine searchCount (ordered.imp fun le => ?_) 0 _ _ (Nat.zero_le _) Array.countP_le_size
  simp only [decide_eq_true_iff]
  omega

theorem rightCount (ordered : table.toList.Pairwise (· ≤ ·)) (x : Nat) : right table x = table.countP (· ≤ x) := by
  refine searchCount (ordered.imp fun le => ?_) 0 _ _ (Nat.zero_le _) Array.countP_le_size
  simp only [decide_eq_true_iff]
  omega

end Halving

namespace Source
variable {t : Text} {tok : Token} {i p : Nat}

structure Searched (s : Source) (p : Nat) : Prop where
  line : s.lineOf p = Halving.right (s.lines.map Line.start) p - 1
  rank : s.rank p = Halving.left (s.code.map Token.start) p
  /-- The last token that starts no later is the only one that may go on over the offset. -/
  covering : s.covering? p =
    match Halving.right (s.tokens.map Token.start) p with
    | 0 => none
    | i + 1 => (s.tokens[i]?).filter fun tok => tok.covers p

theorem linesOrdered (t : Text) : ((ofText t).lines.map Line.start).toList.Pairwise (· ≤ ·) := by
  have starts : ((ofText t).lines.map Line.start).toList = (Line.ofText t).map Line.start := by
    simp [ofText, ofTokens]
  rw [starts, List.pairwise_map, List.pairwise_iff_getElem]
  intro m n inside inside' before
  have found := List.getElem?_eq_getElem inside
  have found' := List.getElem?_eq_getElem inside'
  have own := (Line.startLe found' (Line.ofText t)[n].start).mp (Nat.le_refl _)
  exact (Line.startLe found _).mpr (by omega)

theorem startedCut (found : (tokenize t)[i]? = some tok) (p : Nat) :
    tok.start ≤ p ↔ i < (tokenize t).countP fun tok => tok.start ≤ p := by
  have down : (tokenize t).Pairwise fun x y => decide (y.start ≤ p) = true → decide (x.start ≤ p) = true :=
    (Token.startsOrdered t).imp fun less => by
      simp only [decide_eq_true_iff]
      omega
  have cut := pairwiseCut down found
  rwa [decide_eq_true_iff] at cut

theorem startedCount (found : (tokenize t)[i]? = some tok) (covers : tok.covers p = true) :
    ((tokenize t).countP fun tok => tok.start ≤ p) = i + 1 := by
  rw [Token.coversIff] at covers
  have reach := (startedCut found p).mp (Nat.le_of_lt covers.1)
  refine Nat.le_antisymm ?_ reach
  by_contra more
  have all := List.countP_le_length (p := fun tok : Token => decide (tok.start ≤ p)) (l := tokenize t)
  have next := List.getElem?_eq_getElem (l := tokenize t) (i := i + 1) (by omega)
  have started := (startedCut next p).mpr (by omega)
  have apart := List.pairwise_iff_getElem.mp (Token.apart t) i (i + 1) (by omega) (by omega) (Nat.lt_succ_self i)
  obtain ⟨_, rfl⟩ := List.getElem?_eq_some_iff.mp found
  omega

theorem coveringLast (t : Text) (p : Nat) : (ofText t).covering? p =
    match (tokenize t).countP fun tok => tok.start ≤ p with
    | 0 => none
    | i + 1 => ((tokenize t)[i]?).filter fun tok => tok.covers p := by
  ext tok
  rw [coveringIff]
  constructor
  · rintro ⟨member, covers⟩
    obtain ⟨i, found⟩ := List.getElem?_of_mem member
    rw [startedCount found covers]
    simp [found, covers]
  · intro last
    split at last
    · contradiction
    · obtain ⟨found, covers⟩ := Option.filter_eq_some_iff.mp last
      exact ⟨List.mem_of_getElem? found, covers⟩

theorem searched (t : Text) (p : Nat) : (ofText t).Searched p where
  line := by
    rw [Halving.rightCount (linesOrdered t), Array.countP_map]
    rfl
  rank := by
    have ordered : ((ofText t).code.map Token.start).toList.Pairwise (· ≤ ·) := by
      rw [Array.toList_map, List.pairwise_map]
      exact (codeOrdered t).imp Nat.le_of_lt
    rw [Halving.leftCount ordered, Array.countP_map]
    rfl
  covering := by
    have tokens : (ofText t).tokens = (tokenize t).toArray := rfl
    have ordered : ((ofText t).tokens.map Token.start).toList.Pairwise (· ≤ ·) := by
      rw [Array.toList_map, List.pairwise_map, tokens]
      exact (Token.startsOrdered t).imp Nat.le_of_lt
    rw [Halving.rightCount ordered, Array.countP_map, coveringLast, tokens, ← Array.countP_toList]
    simp only [List.getElem?_toArray]
    rfl

end Source
end Indentation
