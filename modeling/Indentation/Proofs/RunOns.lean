import Indentation.Query

/-! Run-on lines and the strategy. The tests read as one formula in which the strategy is only ever
compared from below, so a line that is a run-on under one strategy is a run-on under every later one.
The test of the word after a row of groups is the only place where the tests meet themselves. -/
namespace Indentation

namespace Strategy
variable {a b c : Strategy}

theorem leTrans (first : a ≤ b) (second : b ≤ c) : a ≤ c := Nat.le_trans first second

theorem reluctantLe : reluctant ≤ a ↔ a ≠ keywordsOnly := by cases a <;> decide

theorem operatorsLe : operators ≤ a ↔ a ≠ keywordsOnly ∧ a ≠ reluctant := by cases a <;> decide

theorem eagerLe : eager ≤ a ↔ a = eager := by cases a <;> decide

end Strategy

namespace Outline
variable {o : Outline} {s s' : Strategy} {groups groups' : Bool} {previous word : Word} {i a : Nat}

def mayContinue (o : Outline) (previous word : Word) : Bool :=
  !(word.kind.isClosing || o.blankBetween previous.lastLine word.line || previous.kind.endsStatement)

def hardEvidence (groups : Bool) (previous word : Word) : Bool :=
  word.kind.continuesStatement || previous.kind.needsContinuation || word.kind == .opening .square ||
    (word.kind == .opening .paren && groups)

def besideDot (previous word : Word) : Bool := word.kind == .mark .dot || previous.kind == .mark .dot

def besideOperator (previous word : Word) : Bool :=
  word.kind == .operator || previous.kind == .operator

theorem continuesIff : o.continues groups s i previous word = true ↔
    o.mayContinue previous word = true ∧
      (.reluctant ≤ s ∧ o.inGroup i = true ∨
        word.kind.startsStatement = false ∧ (o.bodyIntro? i).isSome = false ∧
          (.eager ≤ s ∨ hardEvidence groups previous word = true ∨
            .reluctant ≤ s ∧
              (besideDot previous word = true ∨ .operators ≤ s ∧ besideOperator previous word = true))) := by
  rw [Strategy.reluctantLe, Strategy.operatorsLe, Strategy.eagerLe]
  have absorb (p q r b : Prop) : p ∧ (b ∨ (p ∧ q) ∧ r) ↔ p ∧ (b ∨ q ∧ r) := by grind
  rw [absorb]
  simp [continues, mayContinue, hardEvidence, besideDot, besideOperator, and_assoc, or_assoc]

/- Every comparison of the formula has the strategy on its upper side. -/
theorem continuesMono (le : s ≤ s') (more : groups = true → groups' = true)
    (run : o.continues groups s i previous word = true) :
    o.continues groups' s' i previous word = true := by
  have evidence : hardEvidence groups previous word = true → hardEvidence groups' previous word = true := by
    simp only [hardEvidence, Bool.or_eq_true, Bool.and_eq_true]
    exact Or.imp_right (And.imp_right more)
  obtain ⟨may, grouped | ⟨inner, noBody, tests⟩⟩ := continuesIff.mp run
  · exact continuesIff.mpr ⟨may, .inl ⟨Strategy.leTrans grouped.1 le, grouped.2⟩⟩
  · refine continuesIff.mpr ⟨may, .inr ⟨inner, noBody, ?_⟩⟩
    rcases tests with eager | hard | ⟨reluctant, dot | ⟨operators, operator⟩⟩
    · exact .inl (Strategy.leTrans eager le)
    · exact .inr (.inl (evidence hard))
    · exact .inr (.inr ⟨Strategy.leTrans reluctant le, .inl dot⟩)
    · exact .inr (.inr ⟨Strategy.leTrans reluctant le, .inr ⟨Strategy.leTrans operators le, operator⟩⟩)

theorem continuesAtMono (le : s ≤ s') (more : groups = true → groups' = true)
    (run : o.continuesAt groups s i = true) : o.continuesAt groups' s' i = true := by
  unfold continuesAt at run ⊢
  split at run
  · contradiction
  · split at run
    · exact continuesMono le more run
    · contradiction

theorem groupsContinueMono (le : s ≤ s') (run : o.groupsContinue s i = true) :
    o.groupsContinue s' i = true := by
  unfold groupsContinue at run ⊢
  split at run
  · contradiction
  · simp only [Bool.or_eq_true] at run ⊢
    exact run.imp_right (continuesAtMono le id)

theorem isRunOnMono (le : s ≤ s') (run : o.isRunOn s i = true) : o.isRunOn s' i = true :=
  continuesAtMono le (groupsContinueMono le) run

theorem afterGroupsSpec (found : o.afterGroups? i = some a) :
    i ≤ a ∧ o.opens a .paren = false ∧ o.opens a .square = false := by
  fun_induction afterGroups? o i with
  | case1 => contradiction
  | case2 i group c later closes ih =>
    have rest := ih found
    exact ⟨by omega, rest.2⟩
  | case3 i none =>
    rw [← Option.some.inj found]
    refine ⟨Nat.le_refl i, ?_⟩
    by_cases inside : i < o.size
    · simpa [inside] using none
    · have past : o.words[i]? = .none := Array.getElem?_eq_none (Nat.le_of_not_lt inside)
      simp [opens, kind?, past]

theorem afterGroupsLt (group : o.opens i .paren = true) (found : o.afterGroups? i = some a) : i < a := by
  obtain ⟨low, plain, _⟩ := afterGroupsSpec found
  refine Nat.lt_of_le_of_ne low fun same => ?_
  rw [same, plain] at group
  contradiction

theorem continuesAtPlain (groups groups' : Bool) (plain : o.opens i .paren = false) :
    o.continuesAt groups s i = o.continuesAt groups' s i := by
  unfold continuesAt
  split
  · rfl
  · split
    · rename_i p previous word _ here
      have other : word.kind ≠ .opening .paren := by simpa [opens, kind?, here] using plain
      simp [continues, other]
    · rfl

theorem groupsContinueEq (s : Strategy) (found : o.afterGroups? i = some a) :
    o.groupsContinue s i = (o.isMark a .equals || o.opens a .brace || o.isRunOn s a) := by
  obtain ⟨_, plain, _⟩ := afterGroupsSpec found
  rw [isRunOn, continuesAtPlain _ false plain, groupsContinue, found]

end Outline

namespace Query

theorem isRunOnMonotone (text : Text) (pos : Int) {s s' : Strategy} (le : s ≤ s')
    (run : (ofText text).isRunOn pos s = true) : (ofText text).isRunOn pos s' = true := by
  obtain ⟨i, found, here⟩ := Option.any_eq_true _ _ |>.mp run
  exact (Option.any_eq_true _ _).mpr ⟨i, found, Outline.isRunOnMono le here⟩

theorem isRunOnMonotoneCurried :
    let q := ofText "def f(a: A)\n  (b: B): C".toList
    Strategy.keywordsOnly ≤ .operators ∧ q.isRunOn 14 .keywordsOnly = true ∧
      q.isRunOn 14 .operators = true :=
  ⟨by decide, by decide +kernel, isRunOnMonotone _ 14 (s := .keywordsOnly) (by decide) (by decide +kernel)⟩

end Query
end Indentation
