import Indentation.Proofs.Checked.Statement
import Indentation.Placement.Rules

/-! The rules with each step checked. Every rule can be asked at every gap, also after another one has
answered: it never stops, and it answers as the plain rule does. -/
namespace Indentation.Checked
open Reading (Found)

def closes (o : Outline) (g : Gap) : Checked Bool := do
  match g.word? with
  | none => return false
  | some i => return (← word o i).kind.isClosing

def listAnchor (r : Reading) (opener : Nat) : Checked (Option Anchor) := do
  if !r.settings.alignParameters then return some (.margin (← word r.outline opener).line)
  else if opener + 1 < r.outline.size then
    let first ← word r.outline (opener + 1)
    return if first.kind.isClosing then none else some (.word (opener + 1))
  else return none

def inCaseBody (r : Reading) (opener : Nat) (g : Gap) : Checked Bool := do
  if r.outline.opens opener .brace then
    return (← forward r.outline (opener + 1) g.rank).any r.outline.isCaseClause
  else return false

def blockStep (r : Reading) (g : Gap) (anchorRank : Nat) : Checked Shift := do
  let o := r.outline
  let step := r.settings.step
  let opener ← enclosing o g.rank
  let start ← match opener with
    | some b => do
      let _ ← word o b
      pure b
    | none => pure g.rank
  let lead ← valueLead o r.settings anchorRank start
  let extra := lead.size r.settings
  if g.atEnd then return .columns (step + 1 + extra)
  else if ← closes o g then return lead
  else if g.word?.any o.isCaseClause then return .columns (step + extra)
  else if ← (match opener with
    | some b => inCaseBody r b g
    | none => return false) then return .columns (2 * step + extra)
  else return .columns (step + extra)

def listStep (r : Reading) (g : Gap) (anchor : Anchor) : Checked Shift :=
  if r.settings.alignParameters then return .none else blockStep r g (r.outline.rankOf anchor)

def curriedGroup (r : Reading) (p : Nat) : Checked (Option Nat) := do
  let o := r.outline
  if o.opens (p + 1) .paren || o.opens (p + 1) .square then
    let previous ← word o p
    if previous.kind.isClosing then
      match ← opener o p with
      | none => return none
      | some ⟨s, _⟩ =>
        if r.settings.alignParameters then
          if ← isRunOn o r.strategy 2 (p + 1) then
            let _ ← word o s
            return some s
          else return none
        else return none
    else return none
  else return none

def openBracket (r : Reading) (g : Gap) : Checked Found := do
  let o := r.outline
  match g.word? with
  | none => return none
  | some i =>
    let here ← word o i
    match i with
    | 0 => return none
    | p + 1 =>
      if !here.kind.isOpening then return none
      else match ← curriedGroup r p with
        | some s => return some (.word s, .none)
        | none =>
          if o.isMark p .equals || !o.opens (p + 1) .brace then return none
          else
            let anchor ← statementAnchor o r.settings p
            let rank := o.rankOf anchor
            if (r.definedKind? rank).any Kind.definesNonValue then
              let equals := (← forward o rank g.rank).any fun j => o.isMark j .equals
              return some (anchor, if equals then .level else .none)
            else return none

def listed (r : Reading) (g : Gap) (opener : Nat) : Checked Found := do
  match ← listAnchor r opener with
  | none => return none
  | some anchor => return some (anchor, ← listStep r g anchor)

def enumerator (r : Reading) (g : Gap) : Checked Found := do
  let o := r.outline
  if ← closes o g then return none
  else match ← enclosing o g.rank with
    | none => return none
    | some b =>
      if o.kindBefore? b == some (.keyword .for_) then
        if b + 1 < o.size then
          let _ ← word o (b + 1)
          if b + 1 < g.rank then listed r g b else return none
        else return none
      else return none

def formOf (r : Reading) (i : Nat) : Checked (Option Nat) := do
  let o := r.outline
  match o.kind? i with
  | some (.keyword .else_) => return Reading.openIf? o 0 (← backward o i)
  | some (.keyword .catch_) => return (← backward o i).find? fun j => o.isKeyword j .try_
  | some (.keyword .finally_) => return (← backward o i).find? fun j => o.isKeyword j .try_
  | some (.keyword .yield_) => return (← backward o i).find? fun j => o.isKeyword j .for_
  | _ => return none

def form (r : Reading) (g : Gap) : Checked Found := do
  let o := r.outline
  match g.word? with
  | none => return none
  | some i =>
    let afterBrace := o.kindBefore? i == some (.closing .brace)
    if afterBrace && r.settings.alignForms then return none
    else match ← formOf r i with
      | none => return none
      | some m =>
        if r.settings.alignForms then
          let _ ← word o m
          return some (.word m, .none)
        else return some (← statementAnchor o r.settings m, if afterBrace then .level else .none)

def element (r : Reading) (g : Gap) : Checked Found := do
  let o := r.outline
  if o.kindBefore? g.rank != some (.mark .comma) then return none
  else if ← closes o g then return none
  else match ← enclosing o g.rank with
    | none => return none
    | some b => listed r g b

def body (r : Reading) (g : Gap) : Checked Found := do
  let o := r.outline
  match ← bodyIntro o g.rank with
  | none => return none
  | some intro =>
    let step := if g.word?.any fun i => o.opens i .brace then .none else .level
    if o.isKeyword intro .if_ && r.settings.alignForms then
      let _ ← word o (Reading.ifChain o intro)
      return some (.word (Reading.ifChain o intro), step)
    else return some (← statementAnchor o r.settings intro, step)

def runOnStep (r : Reading) (g : Gap) (i : Nat) (anchor : Anchor) : Checked Int := do
  let o := r.outline
  let step := r.settings.step
  let head := o.rankOf anchor
  let here ← word o i
  if o.isCaseClause head then return 2 * step - (here.bars : Nat)
  else if (o.kind? head).any Kind.takesDoubleStep || here.kind.takesDoubleStep then return 2 * step
  else return step + (← valueLead o r.settings head g.rank).size r.settings

def runOn (r : Reading) (g : Gap) : Checked Found := do
  let o := r.outline
  match g.word? with
  | none => return none
  | some i =>
    if ← isRunOn o r.strategy 2 i then
      let k ← runOnStart o r.strategy i
      if k = i then return none
      else
        let anchor ← alignedAnchor o r.settings k
        return some (anchor, .columns (← runOnStep r g i anchor))
    else return none

def block (r : Reading) (g : Gap) : Checked Found := do
  let o := r.outline
  match ← enclosing o g.rank with
  | none => return none
  | some b =>
    let anchor ← if ← isLineHead o b then do
        let _ ← word o b
        pure (.word b)
      else statementAnchor o r.settings b
    return some (anchor, ← blockStep r g (o.rankOf anchor))

def rules : List (String × (Reading → Gap → Checked Found)) :=
  [("open-paren", openBracket), ("for-enumerators", enumerator), ("forms-align", form),
    ("list", element), ("body", body), ("run-on", runOn), ("block", block)]

structure Within (o : Outline) (g : Gap) : Prop where
  rank : g.rank ≤ o.size
  word : ∀ i, g.word? = some i → i < o.size

variable {r : Reading} {g : Gap} {i b : Nat}

theorem closesOk {o : Outline} (within : Within o g) : closes o g = .ok (g.word?.any o.isClosing) := by
  unfold closes
  cases at_ : g.word? with
  | none => rfl
  | some i =>
    obtain ⟨w, found, reads⟩ := wordOf (within.word i at_)
    simp only [reads, okBind, pureOk, Option.any_some, isClosingOf found]

theorem listAnchorOk (inside : b < r.outline.size) : listAnchor r b = .ok (r.listAnchor? b) := by
  obtain ⟨w, found, reads⟩ := wordOf inside
  rw [listAnchor, Reading.listAnchor?, reads, okBind, Outline.lineOf, found]
  cases r.settings.alignParameters with
  | false => rfl
  | true =>
    by_cases next : b + 1 < r.outline.size
    · obtain ⟨first, found', reads'⟩ := wordOf next
      rw [reads', okBind, isClosingOf found']
      cases first.kind.isClosing <;> simp [next, pureOk]
    · simp [next, pureOk]

theorem inCaseBodyOk (r : Reading) (b : Nat) (g : Gap) : inCaseBody r b g = .ok (r.inCaseBody b g) := by
  rw [inCaseBody, Reading.inCaseBody, forwardOk, okBind]
  cases r.outline.opens b .brace <;> rfl

theorem blockStepOk (fit : Fit r.outline) (within : Within r.outline g) (anchorRank : Nat) :
    blockStep r g anchorRank = .ok (r.blockStep g anchorRank) := by
  rw [blockStep, Reading.blockStep, enclosingOk fit within.rank, okBind, closesOk within]
  cases encloses : r.outline.enclosing? g.rank with
  | none =>
    simp only [pureOk, okBind, valueLeadOk, Option.getD_none, Option.any_none, apply_ite Except.ok]
  | some b =>
    obtain ⟨w, _, reads⟩ := wordOf (fit.enclosingLt within.rank encloses)
    simp only [reads, pureOk, okBind, valueLeadOk, inCaseBodyOk, Option.getD_some, Option.any_some,
      apply_ite Except.ok]

theorem listStepOk (fit : Fit r.outline) (within : Within r.outline g) (anchor : Anchor) :
    listStep r g anchor = .ok (r.listStep g anchor) := by
  rw [listStep, Reading.listStep, blockStepOk fit within]
  split <;> rfl

theorem listedOk (fit : Fit r.outline) (within : Within r.outline g) (inside : b < r.outline.size) :
    listed r g b = .ok ((r.listAnchor? b).map fun anchor => (anchor, r.listStep g anchor)) := by
  rw [listed, listAnchorOk inside, okBind]
  cases r.listAnchor? b with
  | none => rfl
  | some anchor =>
    simp only [listStepOk fit within, okBind]
    rfl

/- Only a closing bracket has an opener, so the test of the word before the group changes nothing. -/
theorem curriedGroupOk {p : Nat} (fit : Fit r.outline) (inside : p + 1 < r.outline.size) :
    curriedGroup r p = .ok (r.curriedGroup? p) := by
  obtain ⟨previous, found, reads⟩ := wordOf (o := r.outline) (i := p) (by omega)
  have run := isRunOnOk (s := r.strategy) fit inside
  have open_ := openerOk (o := r.outline) (i := p) (by omega)
  rw [curriedGroup, Reading.curriedGroup?, reads, okBind, open_, okBind, run]
  cases r.outline.opens (p + 1) .paren || r.outline.opens (p + 1) .square with
  | false => rfl
  | true =>
    cases closing : previous.kind.isClosing with
    | false =>
      have none : r.outline.opener? p = .none := by
        rw [Outline.opener?, isClosingOf found, closing]
        rfl
      simp [none, pureOk]
    | true =>
      cases r.outline.opener? p with
      | none => simp [pureOk]
      | some start =>
        obtain ⟨s, below⟩ := start
        obtain ⟨first, _, reads'⟩ := wordOf (o := r.outline) (i := s) (by omega)
        simp only [reads', okBind]
        cases r.settings.alignParameters <;> cases r.outline.isRunOn r.strategy (p + 1) <;> rfl

theorem openBracketOk (fit : Fit r.outline) (within : Within r.outline g) :
    openBracket r g = .ok (r.openBracket g) := by
  rw [openBracket, Reading.openBracket]
  cases at_ : g.word? with
  | none => rfl
  | some i =>
    have inside := within.word i at_
    obtain ⟨here, found, reads⟩ := wordOf inside
    simp only [reads, okBind]
    cases i with
    | zero => rfl
    | succ p =>
      have before : p < r.outline.size := by omega
      simp only [isOpeningOf found, curriedGroupOk fit inside, okBind,
        statementAnchorOk fit r.settings before, forwardOk]
      cases here.kind.isOpening with
      | false => rfl
      | true =>
        cases r.curriedGroup? p with
        | some s => rfl
        | none => simp only [apply_ite Except.ok, pureOk]

theorem enumeratorOk (fit : Fit r.outline) (within : Within r.outline g) :
    enumerator r g = .ok (r.enumerator g) := by
  have rank := within.rank
  rw [enumerator, Reading.enumerator, closesOk within, okBind, enclosingOk fit rank, okBind]
  cases g.word?.any r.outline.isClosing with
  | true => rfl
  | false =>
    cases encloses : r.outline.enclosing? g.rank with
    | none => rfl
    | some b =>
      have inside := fit.enclosingLt rank encloses
      by_cases next : b + 1 < r.outline.size
      · obtain ⟨first, _, reads⟩ := wordOf next
        simp only [next, reads, okBind, listedOk fit within inside]
        cases r.outline.kindBefore? b == some (.keyword .for_) <;> by_cases before : b + 1 < g.rank <;>
          simp [before, pureOk]
      · have past : ¬ b + 1 < g.rank := by omega
        simp [next, past, pureOk]

theorem formOfOk (inside : i ≤ r.outline.size) : formOf r i = .ok (r.formOf? i) := by
  rw [formOf, Reading.formOf?, backwardOk inside]
  cases r.outline.kind? i with
  | none => rfl
  | some kind =>
    cases kind with
    | keyword k => cases k <;> rfl
    | _ => rfl

theorem formOk (fit : Fit r.outline) (within : Within r.outline g) : form r g = .ok (r.form g) := by
  rw [form, Reading.form]
  cases at_ : g.word? with
  | none => rfl
  | some i =>
    have inside := within.word i at_
    simp only [formOfOk (Nat.le_of_lt inside), okBind]
    cases belongs : r.formOf? i with
    | none => split <;> rfl
    | some m =>
      have earlier := Reading.formOfLt belongs
      have start : m < r.outline.size := by omega
      obtain ⟨w, _, reads⟩ := wordOf start
      simp only [reads, okBind, statementAnchorOk fit r.settings start]
      cases r.settings.alignForms <;> cases r.outline.kindBefore? i == some (.closing .brace) <;> rfl

theorem elementOk (fit : Fit r.outline) (within : Within r.outline g) :
    element r g = .ok (r.element g) := by
  rw [element, Reading.element, closesOk within, okBind, enclosingOk fit within.rank, okBind]
  cases r.outline.kindBefore? g.rank != some (.mark .comma) with
  | true => rfl
  | false =>
    cases g.word?.any r.outline.isClosing with
    | true => rfl
    | false =>
      cases encloses : r.outline.enclosing? g.rank with
      | none => rfl
      | some b =>
        exact listedOk fit within (fit.enclosingLt within.rank encloses)

theorem bodyOk (fit : Fit r.outline) (within : Within r.outline g) : body r g = .ok (r.body g) := by
  rw [body, Reading.body, bodyIntroOk fit within.rank, okBind]
  cases introduces : r.outline.bodyIntro? g.rank with
  | none => rfl
  | some intro =>
    have earlier := Outline.bodyIntroLt introduces
    have chain := Reading.ifChainLe r.outline intro
    have rank := within.rank
    obtain ⟨w, _, reads⟩ := wordOf (o := r.outline) (i := Reading.ifChain r.outline intro) (by omega)
    have inside : intro < r.outline.size := by omega
    simp only [reads, okBind, statementAnchorOk fit r.settings inside, Option.map_some]
    cases r.outline.isKeyword intro .if_ && r.settings.alignForms <;> rfl

theorem runOnStepOk (inside : i < r.outline.size) (anchor : Anchor) :
    runOnStep r g i anchor = .ok (r.runOnStep g i anchor) := by
  obtain ⟨here, found, reads⟩ := wordOf inside
  simp only [runOnStep, Reading.runOnStep, reads, okBind, valueLeadOk, Outline.kind?, found,
    Option.map_some, Option.getD_some, Option.any_some, apply_ite Except.ok, pureOk]

theorem runOnOk (fit : Fit r.outline) (within : Within r.outline g) : runOn r g = .ok (r.runOn g) := by
  rw [runOn, Reading.runOn]
  cases at_ : g.word? with
  | none => rfl
  | some i =>
    have inside := within.word i at_
    have start := r.outline.runOnStartLe r.strategy i
    simp only [isRunOnOk fit inside, runOnStartOk fit inside, okBind, runOnStepOk inside,
      alignedAnchorOk r.settings (Nat.lt_of_le_of_lt start inside)]
    cases on : r.outline.isRunOn r.strategy i with
    | false =>
      have same : r.outline.runOnStart r.strategy i = i := by
        rw [Outline.runOnStart, on]
        rfl
      simp [same, pureOk]
    | true => simp only [if_true, apply_ite Except.ok, pureOk]

theorem blockOk (fit : Fit r.outline) (within : Within r.outline g) : block r g = .ok (r.block g) := by
  rw [block, Reading.block, enclosingOk fit within.rank, okBind]
  cases encloses : r.outline.enclosing? g.rank with
  | none => rfl
  | some b =>
    have inside := fit.enclosingLt within.rank encloses
    obtain ⟨w, _, reads⟩ := wordOf inside
    simp only [isLineHeadOk inside, okBind, reads, statementAnchorOk fit r.settings inside,
      blockStepOk fit within, pureOk, Option.map_some]
    cases r.outline.isLineHead b <;> rfl

theorem rulesOk (fit : Fit r.outline) (within : Within r.outline g) :
    (rules.map fun rule => (rule.1, rule.2 r g)) =
      Reading.named.map fun rule => (rule.1, .ok (rule.2 r g)) := by
  simp only [rules, Reading.named, List.map_cons, List.map_nil, openBracketOk fit within,
    enumeratorOk fit within, formOk fit within, elementOk fit within, bodyOk fit within,
    runOnOk fit within, blockOk fit within]

end Indentation.Checked
