import Indentation.Proofs.Halving
import Indentation.Proofs.Matching
import Indentation.Proofs.Statements
import Mathlib.Order.Bounds.Defs

/-! Lookups by offset are exact. An offset has one line, a nearest code token on either side and at most one token that
goes on over it; a line has a first code token, and a word is the first on its line when no word before it reaches
there. A lookup gives just that, or nothing where there is none. -/
namespace Indentation

namespace Source
variable {t : Text} {tok : Token} {i n p : Nat}

def starting (s : Source) (at_ : Nat → Prop) : Set Nat := {i | i < s.code.size ∧ at_ (s.startOf i)}

def LastOf (indexes : Set Nat) : Option Nat → Prop
  | some i => IsGreatest indexes i
  | none => indexes = ∅

def FirstOf (indexes : Set Nat) : Option Nat → Prop
  | some i => IsLeast indexes i
  | none => indexes = ∅

theorem startingBefore : i ∈ (ofText t).starting (· < p) ↔ i < (ofText t).rank p := by
  have size := rankLe t p
  constructor
  · rintro ⟨inside, before⟩
    exact (startIff (outlineSize t ▸ inside)).mp before
  · intro before
    have inside := Nat.lt_of_lt_of_le before size
    exact ⟨inside, (startIff (outlineSize t ▸ inside)).mpr before⟩

theorem startingFrom :
    i ∈ (ofText t).starting (p ≤ ·) ↔ (ofText t).rank p ≤ i ∧ i < (ofText t).code.size := by
  constructor
  · rintro ⟨inside, after⟩
    have cut := startIff (p := p) (outlineSize t ▸ inside)
    omega
  · rintro ⟨after, inside⟩
    have cut := startIff (p := p) (outlineSize t ▸ inside)
    exact ⟨inside, by omega⟩

theorem startOfMono {j : Nat} (le : i ≤ j) (inside : j < (ofText t).code.size) :
    (ofText t).startOf i ≤ (ofText t).startOf j := by
  have early := startIff (t := t) (p := (ofText t).startOf j + 1) (outlineSize t ▸ Nat.lt_of_le_of_lt le inside)
  have late := startIff (t := t) (p := (ofText t).startOf j + 1) (outlineSize t ▸ inside)
  omega

theorem previousLast (t : Text) (p : Nat) : LastOf ((ofText t).starting (· < p)) ((ofText t).previous? p) := by
  unfold previous?
  split
  · rename_i rank
    refine Set.eq_empty_iff_forall_notMem.mpr fun i member => ?_
    have before := startingBefore.mp member
    omega
  · rename_i i rank
    refine ⟨startingBefore.mpr (by omega), fun j member => ?_⟩
    have before := startingBefore.mp member
    omega

theorem nextFirst (t : Text) (p : Nat) : FirstOf ((ofText t).starting (p ≤ ·)) ((ofText t).next? p) := by
  simp only [next?]
  split
  · rename_i inside
    exact ⟨startingFrom.mpr ⟨Nat.le_refl _, inside⟩, fun j member => (startingFrom.mp member).1⟩
  · rename_i past
    refine Set.eq_empty_iff_forall_notMem.mpr fun i member => ?_
    have after := startingFrom.mp member
    omega

theorem nextFirstUpTo (t : Text) (p stop : Nat) :
    FirstOf ((ofText t).starting fun a => p ≤ a ∧ a ≤ stop)
      (((ofText t).next? p).filter fun i => (ofText t).startOf i ≤ stop) := by
  have first := nextFirst t p
  cases found : (ofText t).next? p with
  | none =>
    rw [found] at first
    refine Set.eq_empty_iff_forall_notMem.mpr fun j member => ?_
    exact Set.eq_empty_iff_forall_notMem.mp first j ⟨member.1, member.2.1⟩
  | some i =>
    rw [found] at first
    obtain ⟨⟨inside, after⟩, least⟩ := first
    have from_ : ∀ j, j ∈ (ofText t).starting (fun a => p ≤ a ∧ a ≤ stop) → i ≤ j := fun j member =>
      least ⟨member.1, member.2.1⟩
    by_cases reach : (ofText t).startOf i ≤ stop
    · rw [Option.filter_some, if_pos (decide_eq_true reach)]
      exact ⟨⟨inside, after, reach⟩, from_⟩
    · rw [Option.filter_some, if_neg (by simpa using reach)]
      refine Set.eq_empty_iff_forall_notMem.mpr fun j member => ?_
      have order := startOfMono (from_ j member) member.1
      exact reach (Nat.le_trans order member.2.2)

theorem indexAtIff : (ofText t).indexAt? p = some i ↔ i ∈ (ofText t).starting (· = p) := by
  constructor
  · intro found
    simp only [indexAt?] at found
    split at found
    · rename_i own
      obtain ⟨tok, entry, same⟩ := (Option.any_eq_true _ _).mp own
      rw [Option.some.inj found] at entry
      exact ⟨(Array.getElem?_eq_some_iff.mp entry).1, (startOfEq entry).trans (by simpa using same)⟩
    · contradiction
  · rintro ⟨inside, rfl⟩
    exact indexAtWord inside

theorem codeApart {j : Nat} {x y : Token} (before : i < j) (found : (ofText t).code[i]? = some x)
    (found' : (ofText t).code[j]? = some y) : x.stop ≤ y.start := by
  have apart := (Token.apart t).filter fun tok => !tok.isComment
  rw [← codeList] at apart
  obtain ⟨inside, rfl⟩ := Array.getElem?_eq_some_iff.mp found
  obtain ⟨inside', rfl⟩ := Array.getElem?_eq_some_iff.mp found'
  exact List.pairwise_iff_getElem.mp apart i j (by simpa using inside) (by simpa using inside') before

theorem lineOfMono {q : Nat} (le : p ≤ q) : (ofText t).lineOf p ≤ (ofText t).lineOf q := by
  rw [lineOfFeeds, lineOfFeeds, ← Nat.min_eq_left le, ← List.take_take]
  exact feedsTake _ _

theorem lineHeadIff (found : (ofText t).code[i]? = some tok) :
    (ofText t).outline.isLineHead i = true ↔
      ∀ j, j < i → ∀ earlier, (ofText t).code[j]? = some earlier →
        ∀ p, earlier.start ≤ p → p < earlier.stop → (ofText t).lineOf p ≠ (ofText t).lineOf tok.start := by
  cases i with
  | zero => simp [Outline.isLineHead]
  | succ k =>
    have size := (Array.getElem?_eq_some_iff.mp found).1
    obtain ⟨last, before⟩ : ∃ last, (ofText t).code[k]? = some last := ⟨_, Array.getElem?_eq_getElem (by omega)⟩
    have head : (ofText t).outline.isLineHead (k + 1) = decide (last.lastLine < tok.line) := by
      simp [Outline.isLineHead, wordsAt, found, before, Token.toWord]
    have ends : (ofText t).lineOf (last.stop - 1) = last.lastLine := by
      rw [lineOfFeeds, Token.feedsLast (codeMember before)]
    have begins : (ofText t).lineOf tok.start = tok.line := by
      rw [lineOfFeeds, Token.feedsStart (codeMember found)]
    have long := Token.startLt (codeMember before)
    have next := codeApart (Nat.lt_succ_self k) before found
    rw [head, decide_eq_true_iff, begins]
    constructor
    · intro less j earlier x entry p low high
      have reach : x.stop ≤ last.stop := by
        rcases Nat.lt_or_eq_of_le (Nat.le_of_lt_succ earlier) with less | rfl
        · have more := codeApart less entry before
          omega
        · rw [Option.some.inj (entry.symm.trans before)]
      have up := lineOfMono (t := t) (p := p) (q := last.stop - 1) (by omega)
      omega
    · intro free
      have up := lineOfMono (t := t) (p := last.stop - 1) (q := tok.start) (by omega)
      have other := free k (Nat.lt_succ_self k) last before (last.stop - 1) (by omega) (by omega)
      omega

end Source

namespace Query
variable {text : Text} {n p : Nat}

def OnLine (q : Query) (n p : Nat) : Prop :=
  ∃ first last, q.lineStart n = .ok first ∧ q.lineEnd n = .ok last ∧ first ≤ p ∧ (p : Int) ≤ last

/- What is looked up for an offset is exact. Its line is the only one that it lies on; the code token before it is the
last one, the next the first one, and the one at it and the token over it are the only ones. -/
structure Exact (q : Query) (p : Nat) : Prop where
  line : ∃ n : Nat, q.lineOf p = n ∧ ∀ m, q.OnLine m p ↔ m = n
  previous : Source.LastOf (q.source.starting (· < p)) (q.previous? p)
  next : Source.FirstOf (q.source.starting (p ≤ ·)) (q.next? p)
  index : ∀ i, q.indexAt? p = some i ↔ i ∈ q.source.starting (· = p)
  alone : (q.source.starting (· = p)).Subsingleton
  covering : ∀ tok, q.covering? p = some tok ↔ tok ∈ q.source.tokens ∧ tok.start < p ∧ p < tok.stop

theorem lineCountEq (text : Text) : (ofText text).lineCount = Lexer.feeds text + 1 := Source.linesSize text

theorem lineStartOf (bound : n ≤ Lexer.feeds text) :
    (ofText text).lineStart n = .ok ((Source.ofText text).line n).start := by
  rw [lineStart, line, lineCountEq, placeInside (Nat.lt_succ_of_le bound)]
  rfl

theorem lineEndOf (bound : n ≤ Lexer.feeds text) :
    (ofText text).lineEnd n = .ok (((Source.ofText text).line n).stop : Int) := by
  rw [lineEnd, lineCountEq]
  rcases Nat.lt_or_eq_of_le bound with more | rfl
  · have start : (ofText text).lineStart (n + 1 : Nat) = _ := lineStartOf more
    have next := Source.nextStart more
    have before : (((Source.ofText text).line (n + 1)).start : Int) - 1 = ((Source.ofText text).line n).stop := by
      omega
    rw [if_pos (by omega), ← Int.natCast_succ, start]
    exact congrArg Except.ok before
  · rw [if_neg (by omega), Source.lastStop]
    rfl

theorem onLineIff : (ofText text).OnLine n p ↔
    n ≤ Lexer.feeds text ∧ ((Source.ofText text).line n).start ≤ p ∧ p ≤ ((Source.ofText text).line n).stop := by
  constructor
  · rintro ⟨first, last, starts, ends, low, high⟩
    have bound : n ≤ Lexer.feeds text := by
      by_contra past
      have outside : place (Lexer.feeds text + 1) n = .error {} := if_neg (by omega)
      rw [lineStart, line, lineCountEq, outside] at starts
      contradiction
    rw [lineStartOf bound] at starts
    rw [lineEndOf bound] at ends
    cases starts
    cases ends
    exact ⟨bound, low, by omega⟩
  · rintro ⟨bound, low, high⟩
    exact ⟨_, _, lineStartOf bound, lineEndOf bound, low, by omega⟩

theorem lineOfOnly (inside : p ≤ text.length) (n : Nat) :
    (ofText text).OnLine n p ↔ n = (Source.ofText text).lineOf p := by
  rw [onLineIff]
  constructor
  · rintro ⟨bound, low, high⟩
    exact (Source.lineOfInside bound low high).symm
  · rintro rfl
    have bound := Source.lineOfLe text p
    have feeds := Source.lineOfFeeds text p
    refine ⟨bound, (Source.startLe bound p).mpr (by omega), ?_⟩
    rcases Nat.lt_or_eq_of_le bound with more | last
    · have next := Source.nextStart more
      have later := Source.startLe (n := (Source.ofText text).lineOf p + 1) more p
      omega
    · rw [last, Source.lastStop]
      exact inside

theorem exact (inside : p ≤ text.length) : (ofText text).Exact p where
  line := ⟨(Source.ofText text).lineOf p, rfl, lineOfOnly inside⟩
  previous := Source.previousLast text p
  next := Source.nextFirst text p
  index i := by
    have forwards : ¬ (p : Int) < 0 := by omega
    rw [indexAt?, if_neg forwards]
    exact Source.indexAtIff
  alone i first j second := by
    have same := (Source.indexAtIff.mpr first).symm.trans (Source.indexAtIff.mpr second)
    exact Option.some.inj same
  covering tok := by
    have all : tok ∈ (ofText text).source.tokens ↔ tok ∈ tokenize text := List.mem_toArray
    rw [all, ← Token.coversIff]
    exact Source.coveringIff

theorem lineCodeOf (bound : n ≤ Lexer.feeds text) :
    (ofText text).lineCode? n =
      .ok (((Source.ofText text).next? ((Source.ofText text).line n).start).filter fun i =>
        (Source.ofText text).startOf i ≤ ((Source.ofText text).line n).stop) := by
  have source : (ofText text).source = Source.ofText text := rfl
  simp only [lineCode?, lineStartOf bound, lineEndOf bound, bind, Except.bind, source]
  cases (Source.ofText text).next? ((Source.ofText text).line n).start with
  | none => rfl
  | some i =>
    simp only [Option.filter_some, Int.ofNat_le, decide_eq_true_iff]
    rfl

theorem lineCodeFirst (bound : n ≤ Lexer.feeds text) :
    ∃ answer, (ofText text).lineCode? n = .ok answer ∧
      Source.FirstOf ((ofText text).source.starting ((ofText text).OnLine n)) answer := by
  have line : (ofText text).OnLine n = fun a =>
      ((Source.ofText text).line n).start ≤ a ∧ a ≤ ((Source.ofText text).line n).stop := by
    ext a
    rw [onLineIff, and_iff_right bound]
  rw [line]
  exact ⟨_, lineCodeOf bound, Source.nextFirstUpTo text _ _⟩

theorem isLineHeadOf {i : Nat} (inside : i < (ofText text).source.code.size) :
    (ofText text).isLineHead i = .ok ((ofText text).outline.isLineHead i) := by
  have size : (ofText text).outline.size = (ofText text).source.code.size := Source.outlineSize text
  cases i with
  | zero => rfl
  | succ k =>
    have before : (ofText text).word k = .ok k := wordInside (by omega)
    have here : (ofText text).word (k + 1 : Nat) = .ok (k + 1) := wordInside (by omega)
    have other : ¬ ((k + 1 : Nat) : Int) = 0 := by omega
    have previous : ((k + 1 : Nat) : Int) - 1 = k := by omega
    rw [isLineHead, if_neg other, previous, before, here]
    rfl

theorem lookupsExact (text : Text) :
    let q := ofText text
    (∀ p, p ≤ text.length → q.Exact p ∧ q.source.Searched p) ∧
    (∀ n : Nat, n < q.lineCount → ∃ answer, q.lineCode? n = .ok answer ∧
      Source.FirstOf (q.source.starting (q.OnLine n)) answer) ∧
    ∀ (i : Nat) (tok : Token), q.source.code[i]? = some tok → ∃ answer, q.isLineHead i = .ok answer ∧
      (answer = true ↔ ∀ j, j < i → ∀ earlier, q.source.code[j]? = some earlier →
        ∀ p : Nat, earlier.start ≤ p → p < earlier.stop → q.lineOf p ≠ q.lineOf tok.start) := by
  intro q
  refine ⟨fun p inside => ⟨exact inside, Source.searched text p⟩, fun n inside => ?_, fun i tok found => ?_⟩
  · exact lineCodeFirst (Source.lineBound inside)
  · refine ⟨_, isLineHeadOf (Array.getElem?_eq_some_iff.mp found).1, (Source.lineHeadIff found).trans ?_⟩
    simp only [q, lineOf, ne_eq, Int.natCast_inj]
    rfl

theorem lookupsExactString :
    let text := "\"\"\"a\nb\"\"\" c // d\n x".toList
    let q := ofText text
    let feed : Nat := 4
    let word : Token := ⟨.identifier, ['c'], 10, 1⟩
    (feed ≤ text.length ∧ q.lineOf feed = 0 ∧ (∀ m, q.OnLine m feed ↔ m = 0) ∧
      q.next? feed = some 1 ∧ IsLeast (q.source.starting (feed ≤ ·)) 1) ∧
    (1 < q.lineCount ∧ q.lineCode? (1 : Nat) = .ok (some 1) ∧ IsLeast (q.source.starting (q.OnLine 1)) 1) ∧
    q.source.code[1]? = some word ∧ q.isLineHead (1 : Nat) = .ok false ∧
      ¬ ∀ j, j < 1 → ∀ earlier, q.source.code[j]? = some earlier →
        ∀ p : Nat, earlier.start ≤ p → p < earlier.stop → q.lineOf p ≠ q.lineOf word.start := by
  intro text q feed word
  obtain ⟨offsets, lines, words⟩ := lookupsExact text
  have inside : feed ≤ text.length := by decide
  have within : 1 < q.lineCount := by decide +kernel
  have found : q.source.code[1]? = some word := by decide +kernel
  have place : q.lineOf feed = 0 := by decide +kernel
  have next : q.next? feed = some 1 := by decide +kernel
  have first : q.lineCode? (1 : Nat) = .ok (some 1) := by decide +kernel
  have behind : q.isLineHead (1 : Nat) = .ok false := by decide +kernel
  obtain ⟨exact, _⟩ := offsets feed inside
  obtain ⟨n, line, only⟩ := exact.line
  obtain rfl : n = 0 := Int.ofNat.inj (line.symm.trans place)
  obtain ⟨answer, gives, least⟩ := lines 1 within
  obtain rfl : answer = some 1 := Except.ok.inj (gives.symm.trans first)
  obtain ⟨head, tells, free⟩ := words 1 word found
  obtain rfl : head = false := Except.ok.inj (tells.symm.trans behind)
  have nearest := exact.next
  rw [next] at nearest
  exact ⟨⟨inside, place, only, next, nearest⟩, ⟨within, first, least⟩, found, behind,
    mt free.mpr Bool.false_ne_true⟩

end Query
end Indentation
