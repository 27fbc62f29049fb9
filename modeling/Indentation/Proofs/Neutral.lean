import Indentation.Indenter
import Indentation.Proofs.Blocks
import Indentation.Proofs.RunOns

/-! Lines that are no run-ons. Two of the rules ask for the strategy, and only to test whether the line itself
is a run-on: a group that follows a group, and the run-on rule. Anchors of statements are found under one fixed
strategy. So two strategies under which a line is no run-on place it alike, and what the most permissive one
takes for no run-on is placed alike by all. -/
namespace Indentation

namespace Reading
variable {o : Outline} {settings : Settings} {s s' : Strategy} {g : Gap}

def Settled (o : Outline) (s : Strategy) (g : Gap) : Prop := ∀ i, g.word? = some i → o.isRunOn s i = false

theorem openBracketSettled (settled : Settled o s g) (settled' : Settled o s' g) :
    (Reading.mk o settings s).openBracket g = (Reading.mk o settings s').openBracket g := by
  unfold openBracket
  split
  · rename_i p word
    have curried : (Reading.mk o settings s).curriedGroup? p = (Reading.mk o settings s').curriedGroup? p := by
      simp [curriedGroup?, settled _ word, settled' _ word]
    rw [curried]
    rfl
  · rfl

theorem runOnSettled (settled : Settled o s g) : (Reading.mk o settings s).runOn g = none := by
  cases word : g.word? with
  | none => simp [runOn, word]
  | some i => exact runOnOther word (settled i word)

theorem namedSettled (settled : Settled o s g) (settled' : Settled o s' g)
    {entry : String × (Reading → Gap → Found)} (member : entry ∈ named) :
    entry.2 ⟨o, settings, s⟩ g = entry.2 ⟨o, settings, s'⟩ g := by
  simp only [named, List.mem_cons, List.not_mem_nil, or_false] at member
  rcases member with rfl | rfl | rfl | rfl | rfl | rfl | rfl
  · exact openBracketSettled settled settled'
  · rfl
  · rfl
  · rfl
  · rfl
  · exact (runOnSettled settled).trans (runOnSettled settled').symm
  · rfl

end Reading

namespace Source
variable {settings : Settings} {s s' : Strategy}

theorem firstRuleSettled (src : Source) {site : Site} (settled : Reading.Settled src.outline s site.gap)
    (settled' : Reading.Settled src.outline s' site.gap) :
    src.firstRule? Rule.builtin settings s site = src.firstRule? Rule.builtin settings s' site := by
  have same : ∀ rule ∈ Rule.builtin, rule.resolve src settings s site = rule.resolve src settings s' site := by
    rw [builtinNamed, List.forall_mem_map]
    intro entry member
    exact congrArg (Option.map _) (Reading.namedSettled settled settled' member)
  unfold firstRule?
  generalize Rule.builtin = rules at same
  induction rules with
  | nil => rfl
  | cons rule rules ih =>
    obtain ⟨here, later⟩ := List.forall_mem_cons.mp same
    rw [List.findSome?_cons, List.findSome?_cons, here, ih later]

theorem placementSettled (src : Source) (settings : Settings) {t : Target}
    (settled : Reading.Settled src.outline s (src.site t.start).gap)
    (settled' : Reading.Settled src.outline s' (src.site t.start).gap) :
    src.placement Rule.builtin settings s t = src.placement Rule.builtin settings s' t := by
  rw [placement, placement, firstRuleSettled src settled settled']

theorem siteWord (src : Source) (pos : Nat) : (src.site pos).gap.word? = src.indexAt? pos := by
  unfold site Gap.word? indexAt?
  dsimp only
  split <;> rfl

end Source

namespace Query

theorem isRunOnAt {text : Text} {pos i : Nat} (s : Strategy) (found : (Source.ofText text).indexAt? pos = some i) :
    (ofText text).isRunOn pos s = (Source.ofText text).outline.isRunOn s i := by
  have index : (ofText text).indexAt? pos = some i := by
    rw [indexAt?, if_neg (by omega)]
    exact found
  rw [isRunOn, index]
  rfl

theorem neverRunOn {text : Text} {pos : Nat} (settled : (ofText text).isRunOn pos .eager = false) (s : Strategy) :
    Reading.Settled (Source.ofText text).outline s ((Source.ofText text).site pos).gap := by
  intro i word
  rw [Source.siteWord] at word
  rw [isRunOnAt .eager word] at settled
  have le : s ≤ .eager := by cases s <;> decide
  by_contra run
  have more := Outline.isRunOnMono le (Bool.not_eq_false _ |>.mp run)
  rw [settled] at more
  contradiction

end Query

namespace Indenter

theorem calculateNeutral (settings : Settings) (text : Text) (pos : Nat)
    (settled : (Query.ofText text).isRunOn ((Source.ofText text).target pos).start .eager = false)
    (session session' : Session) (strategy strategy' : Option Strategy) :
    ({ settings, session } : Indenter).calculate text pos strategy =
      ({ settings, session := session' } : Indenter).calculate text pos strategy' := by
  have never := Query.neverRunOn settled
  have same := (Source.ofText text).placementSettled settings
    (never (strategy.getD session.effective)) (never (strategy'.getD session'.effective))
  let source := Source.ofText text
  let line := source.target pos
  exact congrArg (fun placed : Placement => Reported.mk (placed.width source source.widths line)
    (placed.events source source.widths line)) same

theorem calculateNeutralBody :
    let text : Text := "def f(a: A)\n  (b: B) =\ng\n.h".toList
    (Query.ofText text).isRunOn ((Source.ofText text).target 23).start .eager = false ∧
      (({} : Indenter).calculate text 23 (some .keywordsOnly)).value = 2 ∧
      (({} : Indenter).calculate text 23 (some .eager)).value = 2 := by
  intro text
  have settled : (Query.ofText text).isRunOn ((Source.ofText text).target 23).start .eager = false := by
    decide +kernel
  have eager : (({} : Indenter).calculate text 23 (some .eager)).value = 2 := by decide +kernel
  have same := calculateNeutral {} text 23 settled {} {} (some .keywordsOnly) (some .eager)
  exact ⟨settled, (congrArg Reported.value same).trans eager, eager⟩

end Indenter
end Indentation
