import Indentation.Command.Store

/-! Files after a write. Writing changes the bytes at one place and no directory, so every path leads to
where it led before, and what was written under a path is read back under it. -/
namespace Indentation.Command

def Node.after (p : Place) (bytes : ByteArray) : Node → Node
  | .directory => .directory
  | .file q old => .file q (if q = p then bytes else old)
  | .free q => if q = p then .file q bytes else .free q

namespace Store
variable {s : Store} {p q : Place} {bytes : ByteArray}

theorem fileOfPut (s : Store) (p q : Place) (bytes : ByteArray) :
    (s.put p bytes).file? q = if q = p then some bytes else s.file? q := by
  unfold put file?
  split
  · rename_i held
    have place : ((fun entry : Place × ByteArray => entry.1 == q) ∘
        fun entry => if entry.1 == p then (p, bytes) else entry) = fun entry => entry.1 == q := by
      funext entry
      by_cases here : entry.1 = p <;> simp [here]
    rw [List.find?_map, place]
    cases found : s.files.find? fun entry => entry.1 == q with
    | none =>
      have other : q ≠ p := by
        rintro rfl
        obtain ⟨entry, member, here⟩ := List.any_eq_true.mp held
        exact List.find?_eq_none.mp found entry member here
      rw [if_neg other]
      rfl
    | some entry =>
      obtain rfl : entry.1 = q := by simpa using List.find?_some found
      by_cases here : entry.1 = p <;> simp [here]
  · rename_i free
    have absent : (s.files.find? fun entry => entry.1 == p) = none := by
      rw [List.find?_eq_none]
      intro entry member here
      exact free (List.any_eq_true.mpr ⟨entry, member, here⟩)
    rw [List.find?_append]
    by_cases here : q = p
    · subst here
      simp [absent]
    · simp [here, Ne.symm here]

theorem directoryOfPut (s : Store) (p q : Place) (bytes : ByteArray) :
    (s.put p bytes).isDirectory q = s.isDirectory q := by
  unfold put
  split <;> rfl

theorem enterPut {part : Text} {r : Place} {node : Node} (entered : s.enter q part = .ok (r, node)) :
    (s.put p bytes).enter q part = .ok (r, node.after p bytes) := by
  simp only [enter, directoryOfPut, fileOfPut] at entered ⊢
  by_cases stay : part = here
  · rw [if_pos stay] at entered ⊢
    cases entered
    rfl
  · rw [if_neg stay] at entered ⊢
    by_cases back : part = up
    · rw [if_pos back] at entered ⊢
      cases entered
      rfl
    · rw [if_neg back] at entered ⊢
      by_cases directory : s.isDirectory (q ++ [part]) = true
      · rw [if_pos directory] at entered ⊢
        cases entered
        rfl
      · rw [if_neg directory] at entered ⊢
        cases held : s.file? (q ++ [part]) with
        | some old =>
          rw [held] at entered
          cases entered
          by_cases same : q ++ [part] = p <;> simp [Node.after, same]
        | none =>
          rw [held] at entered
          dsimp only at entered
          split at entered
          · rename_i short
            cases entered
            by_cases same : q ++ [part] = p
            · simp [Node.after, same]
            · simp [Node.after, same, short]
          · contradiction

theorem walkPut {parts : List Text} {node : Node} (walked : s.walk q parts = .ok node) :
    (s.put p bytes).walk q parts = .ok (node.after p bytes) := by
  induction parts generalizing q with
  | nil =>
    cases walked
    rfl
  | cons part parts ih =>
    unfold walk at walked ⊢
    cases entered : s.enter q part with
    | error e =>
      rw [entered] at walked
      contradiction
    | ok step =>
      obtain ⟨r, reached⟩ := step
      rw [entered] at walked
      rw [enterPut entered]
      cases parts with
      | nil =>
        cases walked
        rfl
      | cons next parts =>
        cases reached with
        | directory => exact ih walked
        | file place old => cases walked
        | free place => cases walked

theorem findPut {path : Text} {node : Node} (found : s.find path = .ok node) :
    (s.put p bytes).find path = .ok (node.after p bytes) := by
  unfold find at found ⊢
  split at found
  · contradiction
  · rw [if_neg ‹_›]
    split at found
    · contradiction
    · rw [if_neg ‹_›]
      split at found
      · contradiction
      · rw [if_neg ‹_›]
        exact walkPut found

theorem writePut {s' : Store} {path : Text} (written : s.write path bytes = .ok s') :
    wantsDirectory path = false ∧ ∃ place node, s.find path = .ok node ∧ s' = s.put place bytes ∧
      node.after place bytes = .file place bytes := by
  unfold write at written
  cases found : s.find path with
  | error e =>
    rw [found] at written
    contradiction
  | ok node =>
    rw [found] at written
    cases node with
    | directory => contradiction
    | file place old =>
      dsimp only at written
      split at written
      · contradiction
      · rename_i plain
        cases written
        exact ⟨by simpa using plain, place, _, rfl, rfl, by simp [Node.after]⟩
    | free place =>
      dsimp only at written
      split at written
      · contradiction
      · rename_i plain
        cases written
        exact ⟨by simpa using plain, place, _, rfl, rfl, by simp [Node.after]⟩

theorem readWritten {s' : Store} {path : Text} (written : s.write path bytes = .ok s') :
    s'.read path = .ok bytes := by
  obtain ⟨plain, place, node, found, rfl, here⟩ := writePut written
  rw [read, findPut found, here, plain]
  rfl

theorem writeRead {path : Text} {old : ByteArray} (held : s.read path = .ok old) (bytes : ByteArray) :
    s.pathExists path = true ∧ ∃ s', s.write path bytes = .ok s' := by
  unfold read at held
  cases found : s.find path with
  | error e =>
    rw [found] at held
    contradiction
  | ok node =>
    rw [found] at held
    cases node with
    | directory => contradiction
    | free place => contradiction
    | file place old =>
      dsimp only at held
      split at held
      · contradiction
      · rename_i plain
        refine ⟨by simp [pathExists, found, plain], s.put place bytes, ?_⟩
        simp [write, found, plain]

end Store
end Indentation.Command
