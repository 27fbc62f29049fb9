import Indentation.Indenter
import Mathlib.Data.List.Induction
import Mathlib.Logic.Function.Iterate

/-! The strategy in force over a row of calls. It depends on two numbers: how often the last command
was made in a row, which decides whether there is an override, and how often the strategy was rotated,
which decides the default. Asking for a column is no command and breaks no row. -/
namespace Indentation

abbrev CommandName := {name : String // name ≠ "rotate"}

inductive Call where
  | indentLine (text : Text) (pos : Int) (strategy : Option Strategy) (command : CommandName)
  | calculate (text : Text) (pos : Int) (strategy : Option Strategy)
  | reindent (text : Text) (strategy : Option Strategy)
  | rotate

namespace Call

def apply (ind : Indenter) : Call → Indenter
  | indentLine text pos strategy command => (ind.tryIndentLine text pos strategy (some command)).1
  | calculate _ _ _ => ind
  | reindent text strategy => (ind.tryReindent text strategy).1
  | rotate => ind.rotate.1

def run (ind : Indenter) (calls : List Call) : Indenter := calls.foldl apply ind

def mark? : Call → Option (Option CommandName)
  | indentLine _ _ _ command => some (some command)
  | calculate _ _ _ => none
  | reindent _ _ | rotate => some none

def streak (calls : List Call) : Option (CommandName × Nat) :=
  match (calls.filterMap mark?).reverse with
  | some command :: before => some (command, (before.takeWhile (· == some command)).length + 1)
  | _ => none

def overrideAfter (opposite : Strategy) : Option (CommandName × Nat) → Option Strategy
  | none => none
  | some (_, count) => if count % 2 = 1 then none else some opposite

def isRotate : Call → Bool
  | rotate => true
  | _ => false

def turned (calls : List Call) (default_ : Option Strategy) : Option Strategy :=
  (fun d => some (Session.following (d.getD .eager)))^[calls.countP isRotate] default_

variable {calls : List Call} {ind : Indenter} {command : CommandName}

theorem turnedStill {call : Call} (still : call.isRotate = false) (default_ : Option Strategy) :
    turned (calls ++ [call]) default_ = turned calls default_ := by
  rw [turned, List.countP_append, List.countP_singleton, still]
  rfl

theorem streakUnmarked {call : Call} (unmarked : call.mark? = none) : streak (calls ++ [call]) = streak calls := by
  simp [streak, unmarked]

theorem streakEnded {call : Call} (ends : call.mark? = some none) : streak (calls ++ [call]) = none := by
  simp [streak, ends]

theorem streakFirst {call : Call} (made : call.mark? = some (some command))
    (other : ∀ count, streak calls ≠ some (command, count)) :
    streak (calls ++ [call]) = some (command, 1) := by
  unfold streak at other ⊢
  simp only [List.filterMap_append, List.filterMap_cons, List.filterMap_nil, made, List.reverse_append,
    List.reverse_singleton, List.singleton_append, Option.some.injEq, Prod.mk.injEq, true_and]
  cases marks : (calls.filterMap mark?).reverse with
  | nil => rfl
  | cons last before =>
    rw [marks] at other
    have fresh : last ≠ some command := by
      rintro rfl
      exact other _ rfl
    simp [fresh]

theorem streakAgain {call : Call} {count : Nat} (made : call.mark? = some (some command))
    (same : streak calls = some (command, count)) :
    streak (calls ++ [call]) = some (command, count + 1) := by
  unfold streak at same ⊢
  simp only [List.filterMap_append, List.filterMap_cons, List.filterMap_nil, made, List.reverse_append,
    List.reverse_singleton, List.singleton_append, Option.some.injEq, Prod.mk.injEq, true_and]
  cases marks : (calls.filterMap mark?).reverse with
  | nil => simp [marks] at same
  | cons last before =>
    rw [marks] at same
    cases last with
    | none => contradiction
    | some last =>
      obtain ⟨rfl, rfl⟩ := Prod.mk.inj (Option.some.inj same)
      simp

/- What a session knows of the calls made so far, of which the default was the first. -/
structure Follows (default_ : Option Strategy) (calls : List Call) (s : Session) : Prop where
  last : ∀ command : CommandName,
    s.lastCommand = some command.val ↔ ∃ count, streak calls = some (command, count)
  override : s.override = overrideAfter s.opposite (streak calls)
  default_ : s.default_ = (turned calls default_).map .named

namespace Follows
variable {default_ : Option Strategy} {s : Session}

theorem start (h : Follows default_ calls s) {call : Call} (made : call.mark? = some (some command))
    (still : call.isRotate = false) :
    Follows default_ (calls ++ [call]) (s.start (some command.val)).1 := by
  by_cases same : some command.val = s.lastCommand
  · obtain ⟨count, row⟩ := (h.last command).mp same.symm
    have override := h.override
    rw [row, overrideAfter] at override
    simp only [Session.start, if_pos same]
    refine ⟨fun other => ?_, ?_, by rw [turnedStill still]; exact h.default_⟩
    · simp [streakAgain made row, Subtype.ext_iff]
    · rw [streakAgain made row, overrideAfter]
      by_cases odd : count % 2 = 1
      · have even : ¬(count + 1) % 2 = 1 := by omega
        rw [override, if_pos odd, if_neg even]
        rfl
      · have next : (count + 1) % 2 = 1 := by omega
        rw [override, if_neg odd, if_pos next]
        rfl
  · have fresh : ∀ count, streak calls ≠ some (command, count) := fun count row =>
      same ((h.last command).mpr ⟨count, row⟩).symm
    simp only [Session.start, if_neg same]
    refine ⟨fun other => ?_, ?_, by rw [turnedStill still]; exact h.default_⟩
    · simp [streakFirst made fresh, Subtype.ext_iff]
    · rw [streakFirst made fresh]
      rfl

theorem finish (h : Follows default_ calls s) {call : Call} (ends : call.mark? = some none)
    (still : call.isRotate = false) : Follows default_ (calls ++ [call]) s.finish where
  last command := by simp [Session.finish, streakEnded ends]
  override := by rw [streakEnded ends]; rfl
  default_ := by
    rw [turnedStill still]
    exact h.default_

theorem rotate (h : Follows default_ calls s) : Follows default_ (calls ++ [.rotate]) s.rotate.1 where
  last command := by
    have ended : streak (calls ++ [.rotate]) = none := streakEnded rfl
    have other : "rotate" ≠ command.val := command.property.symm
    simp [Session.rotate, ended, other]
  override := by rw [streakEnded rfl]; rfl
  default_ := by
    have base : s.base.ranked = (turned calls default_).getD .eager := by
      rw [Session.base, h.default_]
      cases turned calls default_ <;> rfl
    have turns : turned (calls ++ [.rotate]) default_ =
        some (Session.following ((turned calls default_).getD .eager)) := by
      have one : [Call.rotate].countP isRotate = 1 := rfl
      rw [turned, List.countP_append, one, Function.iterate_succ_apply']
      rfl
    rw [turns, ← base]
    rfl

theorem step (h : Follows default_ calls ind.session) (call : Call) :
    Follows default_ (calls ++ [call]) (call.apply ind).session := by
  cases call with
  | indentLine text pos strategy command => exact h.start rfl rfl
  | calculate text pos strategy =>
    refine ⟨?_, ?_, by rw [turnedStill rfl]; exact h.default_⟩
    · rw [streakUnmarked rfl]
      exact h.last
    · rw [streakUnmarked rfl]
      exact h.override
  | reindent text strategy => exact h.finish rfl rfl
  | rotate => exact h.rotate

theorem run (ind : Indenter) (default_ : Option Strategy) (calls : List Call) :
    Follows default_ calls
      (Call.run { ind with session := { default_ := default_.map .named } } calls).session := by
  induction calls using List.reverseRecOn with
  | nil => exact ⟨by simp [Call.run, streak], rfl, rfl⟩
  | append_singleton calls call ih =>
    rw [Call.run, List.foldl_append]
    exact ih.step call

theorem effective (h : Follows default_ calls s) :
    s.effective = s.override.getD ((turned calls default_).getD .eager) := by
  have base : s.base.strategy = (turned calls default_).getD .eager := by
    rw [Session.base, h.default_]
    cases turned calls default_ <;> rfl
  rw [Session.effective, base]

end Follows

theorem strategyInForce (ind : Indenter) (default_ : Option Strategy) (calls : List Call) :
    let s := (run { ind with session := { default_ := default_.map .named } } calls).session
    s.override = overrideAfter s.opposite (streak calls) ∧
      s.default_ = (turned calls default_).map .named ∧
      s.effective = s.override.getD ((turned calls default_).getD .eager) := by
  intro s
  have follows : Follows default_ calls s := .run ind default_ calls
  exact ⟨follows.override, follows.default_, follows.effective⟩

end Call
end Indentation
