import Indentation.Proofs.Checked.Line
import Indentation.Proofs.Levels
import Indentation.Proofs.RunOns

/-! Walks back over a statement. The walk to its first line ends at a line that is no run-on, or behind a
bracket that closes nothing, and goes no less far under a more permissive strategy. The walk from an `else`
finds the `if` that a reading from the front leaves waiting for it. -/
namespace Indentation

namespace Kind

theorem openingEnds {k : Kind} (opening : k.isOpening = true) : k.endsStatement = true := by
  cases k <;> first | rfl | contradiction

end Kind

namespace Outline
variable {o : Outline} {s s' : Strategy} {i p : Nat}

theorem runOnAfter (run : o.isRunOn s i = true) : ∃ p, i = p + 1 ∧ o.isOpening p = false := by
  unfold isRunOn continuesAt at run
  split at run
  · contradiction
  · rename_i p
    split at run
    · rename_i previous word earlier here
      have may := (continuesIff.mp run).1
      simp only [mayContinue, Bool.not_eq_true', Bool.or_eq_false_iff] at may
      refine ⟨p, rfl, Bool.eq_false_iff.mpr fun opening => ?_⟩
      have opens : previous.kind.isOpening = true := by simpa [isOpening, kind?, earlier] using opening
      rw [Kind.openingEnds opens] at may
      simp at may
    · contradiction

/- The one thing that stops the walk at a run-on is a closing bracket that closes nothing. -/
theorem runOnBlocked (run : o.isRunOn s i = true) (blocked : o.before? i = none) :
    0 < i ∧ o.isClosing (i - 1) = true ∧ o.partner? (i - 1) = none := by
  obtain ⟨p, rfl, opening⟩ := runOnAfter run
  simp only [before?, opening, Bool.false_eq_true, if_false] at blocked
  split at blocked
  · rename_i closing
    have lone := Option.map_eq_none_iff.mp blocked
    exact ⟨Nat.succ_pos p, closing, by simp [partner?, closing, lone]⟩
  · contradiction

theorem runOnStartStops (o : Outline) (s : Strategy) (i : Nat) :
    o.isRunOn s (o.runOnStart s i) = false ∨ o.before? (o.runOnStart s i) = none := by
  fun_induction runOnStart o s i with
  | case1 i run blocked => exact .inr blocked
  | case2 i run e below found ih => exact ih
  | case3 i still => exact .inl (by simpa using still)

theorem runOnStartMono (le : s ≤ s') (i : Nat) : o.runOnStart s' i ≤ o.runOnStart s i := by
  -- the wider strategy goes along with every step of the narrower one
  fun_induction runOnStart o s i with
  | case1 i run blocked => exact o.runOnStartLe s' i
  | case2 i run e below found ih =>
    rw [runOnStart, if_pos (isRunOnMono le run), found]
    exact ih
  | case3 i still => exact o.runOnStartLe s' i

end Outline

namespace Source

theorem indexAtWord {t : Text} {i : Nat} (inside : i < (ofText t).code.size) :
    (ofText t).indexAt? ((ofText t).startOf i) = some i := by
  have found : (ofText t).code[i]? = some (ofText t).code[i] := Array.getElem?_eq_getElem inside
  have own : ((ofText t).code[i]?).any (fun tok => tok.start == (ofText t).startOf i) = true := by
    simp [startOfEq found, found]
  simp only [indexAt?, rankWord inside, own, if_true]

end Source

namespace Query
variable {text : Text} {i j : Nat}

theorem wordInside (inside : i < (ofText text).outline.size) : (ofText text).word i = .ok i :=
  placeInside inside

theorem enclosingWord (inside : i < (ofText text).outline.size) :
    (ofText text).enclosing? ((ofText text).source.startOf i) = (ofText text).outline.enclosing? i := by
  have code : i < (Source.ofText text).code.size := Source.outlineSize text ▸ inside
  rw [enclosing?, Int.toNat_natCast, Source.enclosing?, ofText, Source.rankWord code]
  rfl

theorem isRunOnWord (s : Strategy) (inside : i < (ofText text).outline.size) :
    (ofText text).isRunOn ((ofText text).source.startOf i) s = (ofText text).outline.isRunOn s i := by
  have code : i < (Source.ofText text).code.size := Source.outlineSize text ▸ inside
  have found : (ofText text).indexAt? ((ofText text).source.startOf i) = some i := by
    rw [indexAt?, if_neg (by omega), Int.toNat_natCast]
    exact Source.indexAtWord code
  rw [isRunOn, found, Option.any_some]

theorem runOnStartSound (text : Text) {i : Nat} (s : Strategy) (inside : i < (ofText text).outline.size) :
    let q := ofText text
    ∃ k : Nat, Checked.runOnStart q.outline s i = .ok k ∧ q.runOnStart i s = .ok k ∧ k ≤ i ∧
      q.enclosing? (q.source.startOf k) = q.enclosing? (q.source.startOf i) ∧
      (q.isRunOn (q.source.startOf k) s = false ∨
        0 < k ∧ q.outline.isClosing (k - 1) = true ∧ q.partner? (k - 1) = .ok none) ∧
      ∀ s', s ≤ s' → ∃ k' : Nat, q.runOnStart i s' = .ok k' ∧ k' ≤ k := by
  intro q
  have stacked : q.outline.Stacked := Outline.ofWordsStacked _ _
  have low := q.outline.runOnStartLe s i
  have within := Nat.lt_of_le_of_lt low inside
  have walk : ∀ s', q.runOnStart i s' = .ok (q.outline.runOnStart s' i) := by
    intro s'
    have forward : ¬ (i : Int) < 0 := by omega
    rw [runOnStart, wordInside inside, Except.map, if_neg forward]
  refine ⟨q.outline.runOnStart s i, Checked.runOnStartOk (Checked.fit text) inside, walk s, low, ?_, ?_,
    fun s' le => ⟨_, walk s', Outline.runOnStartMono le i⟩⟩
  · rw [enclosingWord inside, enclosingWord within]
    exact stacked.levelIff.mp (stacked.runOnLevel s (Nat.le_of_lt inside))
  · rw [isRunOnWord s within]
    cases run : q.outline.isRunOn s (q.outline.runOnStart s i) with
    | false => exact .inl rfl
    | true =>
      have blocked := (q.outline.runOnStartStops s i).resolve_left (by simp [run])
      obtain ⟨later, closing, lone⟩ := Outline.runOnBlocked run blocked
      refine .inr ⟨later, closing, ?_⟩
      rw [← Int.natCast_one, ← Int.ofNat_sub later, partner?, wordInside (by omega), Except.map, lone]

theorem runOnStartSoundGroup :
    let q := ofText "f(a,\n  b)\n  .g\n  .h".toList
    8 < q.outline.size ∧ q.runOnStart 8 .reluctant = .ok 0 ∧
      q.enclosing? (q.source.startOf 0) = q.enclosing? (q.source.startOf 8) ∧
      q.isRunOn (q.source.startOf 0) .reluctant = false ∧
      ∀ s', .reluctant ≤ s' → q.runOnStart 8 s' = .ok 0 := by
  intro q
  have inside : 8 < q.outline.size := by decide +kernel
  obtain ⟨k, _, walk, _, level, stop, further⟩ := runOnStartSound _ .reluctant inside
  have first : q.runOnStart 8 .reluctant = .ok 0 := by decide +kernel
  obtain rfl : k = 0 := Int.ofNat.inj (Except.ok.inj (walk.symm.trans first))
  refine ⟨inside, first, level, stop.resolve_right fun blocked => Nat.lt_irrefl 0 blocked.1, fun s' le => ?_⟩
  obtain ⟨k', walk', before⟩ := further s' le
  obtain rfl : k' = 0 := Nat.le_zero.mp before
  exact walk'

end Query

namespace Reading
variable {o : Outline}

/- A reading from the front keeps the `if` words that no `else` has taken, the last one first. -/
def takeForm (o : Outline) (waiting : List Nat) (j : Nat) : List Nat :=
  if o.isKeyword j .else_ then waiting.tail
  else if o.isKeyword j .if_ then j :: waiting
  else waiting

def waitingIfs (o : Outline) (js : List Nat) : List Nat := js.foldl (takeForm o) []

theorem openIfWaiting (pending : Nat) (js : List Nat) :
    openIf? o pending js = ((waitingIfs o js.reverse).drop pending).head?.map (ifChain o) := by
  induction js generalizing pending with
  | nil => cases pending <;> rfl
  | cons j js ih =>
    -- the nearest expression is the last one from the front
    have last : waitingIfs o (j :: js).reverse = takeForm o (waitingIfs o js.reverse) j := by
      rw [waitingIfs, List.reverse_cons, List.foldl_append]
      rfl
    unfold openIf?
    rw [last, takeForm]
    cases o.isKeyword j .else_ with
    | true =>
      rw [if_pos rfl, if_pos rfl, ih, ← List.drop_one, List.drop_drop, Nat.add_comm]
    | false =>
      cases o.isKeyword j .if_ with
      | true =>
        cases pending with
        | zero => rfl
        | succ rest => exact ih rest
      | false => exact ih pending

theorem formOfElse (text : Text) (settings : Settings) (strategy : Strategy) {i : Nat}
    (word : (Source.ofText text).outline.isKeyword i .else_ = true) :
    let r : Reading := ⟨(Source.ofText text).outline, settings, strategy⟩
    let waiting := waitingIfs r.outline (r.outline.backward i).reverse
    Checked.formOf r i = .ok (r.formOf? i) ∧ (r.formOf? i = none ↔ waiting = []) ∧
      ∀ j earlier, waiting = j :: earlier →
        r.formOf? i = some (if r.outline.kindBefore? j = some (.keyword .else_) then j - 1 else j) := by
  intro r waiting
  have kind : r.outline.kind? i = some (.keyword .else_) := by simpa [Outline.isKeyword] using word
  have inside : i < r.outline.size := by
    by_contra past
    have none : r.outline.words[i]? = .none := Array.getElem?_eq_none (Nat.le_of_not_lt past)
    simp [Outline.kind?, none] at kind
  have form : r.formOf? i = waiting.head?.map (ifChain r.outline) := by
    rw [formOf?, kind]
    exact openIfWaiting 0 _
  refine ⟨Checked.formOfOk (Nat.le_of_lt inside), ?_, fun j earlier stack => ?_⟩
  · rw [form, Option.map_eq_none_iff, List.head?_eq_none_iff]
  · rw [form, stack, List.head?_cons, Option.map_some, ifChain]
    simp only [beq_iff_eq]

theorem formOfElseChain :
    let o := (Source.ofText "if (a) if (b) x else if (c) y else z".toList).outline
    let r : Reading := ⟨o, {}, .eager⟩
    o.isKeyword 15 .else_ = true ∧ waitingIfs o (o.backward 15).reverse = [10, 0] ∧ r.formOf? 15 = some 9 := by
  intro o r
  have word : o.isKeyword 15 .else_ = true := by decide +kernel
  have waiting : waitingIfs o (o.backward 15).reverse = [10, 0] := by decide +kernel
  refine ⟨word, waiting, ?_⟩
  rw [(formOfElse _ {} .eager word).2.2 10 [0] waiting, if_pos (by decide +kernel)]

end Reading
end Indentation
