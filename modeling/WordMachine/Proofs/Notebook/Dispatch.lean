import WordMachine.Notebook
import WordMachine.Proofs.Assembly.Statements
import WordMachine.Proofs.Assembly.Values
import WordMachine.Proofs.SourceLine.Reading
import WordMachine.Proofs.Text.Casing
import WordMachine.Proofs.Text.Pieces

namespace WordMachine

namespace CommandName

variable {w : Text} {n : CommandName}

theorem lower_of_read? (h : read? w = some n) : Text.lower w = n.name.toList := by
  have hfind := List.find?_some h
  exact (of_decide_eq_true hfind).symm

theorem isPlain_of_mem_name (n : CommandName) : ∀ c ∈ n.name.toList, Text.IsPlain c := by
  have hall : n.name.toList.all (fun c => decide (Text.IsPlain c)) = true := by
    cases n <;> decide
  simpa using hall

theorem upper_of_read? (h : read? w = some n) : Text.upper w = Text.upper n.name.toList := by
  have hlower := lower_of_read? h
  rw [← Text.upper_lower_of_forall_isPlain (hlower ▸ n.isPlain_of_mem_name), hlower]

theorem toLower_mem_of_read? (h : read? w = some n) {c : Char} (hc : c ∈ w) :
    c.toLower ∈ n.name.toList := by
  have hlower := lower_of_read? h
  obtain ⟨hmap, -⟩ := Text.lower_eq_map_of_forall_isPlain (hlower ▸ n.isPlain_of_mem_name)
  rw [← hlower, hmap]
  exact List.mem_map_of_mem hc

theorem semicolon_not_mem_of_read? (h : read? w = some n) : ';' ∉ w := by
  intro hc
  have hname := toLower_mem_of_read? h hc
  revert hname
  cases n <;> decide

theorem colon_not_mem_of_read? (h : read? w = some n) : ':' ∉ w := by
  intro hc
  have hname := toLower_mem_of_read? h hc
  revert hname
  cases n <;> decide

end CommandName

open Layout Emission

/-- Whether a word is an operation of the assembler, a directive included. -/
def isOperation (op : Text) : Bool := isLoc op || isData op || (Mnemonic.read? op).isSome

theorem isOperation_congr {op op' : Text} (h : Text.upper op = Text.upper op') :
    isOperation op = isOperation op' := by
  rw [isOperation, isOperation, isLoc_congr h, isData_congr h, read?_congr h]

theorem isOperation_of_read? {w : Text} {n : CommandName} (h : CommandName.read? w = some n) :
    isOperation w = false := by
  rw [isOperation_congr (CommandName.upper_of_read? h)]
  cases n <;> decide

theorem Settled.isOperation {symbols : SymbolTable} {p : PlacedLine} {op : Text}
    (h : Settled symbols p) (hop : p.line.op? = some op) : isOperation op = true := by
  rcases h with hnone | ⟨hop', hloc⟩ | @⟨line, op', address, number, v, hop', hloc, -, hvalue⟩
  · cases hop.symm.trans hnone
  · obtain rfl := Option.some.inj (hop.symm.trans hop')
    rw [WordMachine.isOperation, hloc]
    rfl
  · obtain rfl := Option.some.inj (hop.symm.trans hop')
    cases hdata : isData op with
    | true =>
      rw [WordMachine.isOperation, hdata, Bool.or_true]
      rfl
    | false =>
      obtain ⟨m, -, hm, -⟩ := value_eq_ok hdata hvalue
      rw [WordMachine.isOperation, hm, Option.isSome_some, Bool.or_true]

theorem Assembly.isOperation_of_mem_lines {text t op : Text} {a : Assembly}
    (h : ofText text = .ok a) (ht : t ∈ Text.lines text)
    (hop : (SourceLine.read t).op? = some op) : WordMachine.isOperation op = true := by
  have hread : SourceLine.read t ∈ a.lines.map (·.line) := by
    rw [map_line h]
    exact List.mem_map_of_mem ht
  obtain ⟨p, hp, hline⟩ := List.mem_map.1 hread
  exact (settled_of_mem h hp).isOperation (hline ▸ hop)

namespace SourceLine

theorem op?_of_read? {t w : Text} {ws : List Text} {n : CommandName}
    (h : CommandName.read? w = some n) (ht : Text.words t = w :: ws) :
    (read t).op? = some w := by
  obtain ⟨ws', hcode⟩ := Text.exists_words_cut ht (by decide : Text.isBlank ';' = false)
    (CommandName.semicolon_not_mem_of_read? h)
  have hcolon : w.getLast? ≠ some ':' := fun hlast =>
    CommandName.colon_not_mem_of_read? h (List.mem_of_getLast? hlast)
  have hwords : codeWords t = w :: ws' := hcode
  rw [read_eq, hwords, splitLabel, if_neg hcolon]
  rfl

end SourceLine

namespace Notebook

theorem exists_of_isCommandCell {text : Text} (h : isCommandCell text = true) :
    ∃ w ws n, Text.words text = w :: ws ∧ CommandName.read? w = some n := by
  rw [isCommandCell] at h
  split at h
  · cases h
  · next w ws hw =>
    obtain ⟨n, hn⟩ := Option.isSome_iff_exists.1 h
    exact ⟨w, ws, n, hw, hn⟩

/-- A command cell is not assembled. -/
theorem exists_error_of_isCommandCell {text : Text} (h : isCommandCell text = true) :
    ∃ f, Assembly.ofText text = .error f := by
  obtain ⟨w, ws, n, hw, hn⟩ := exists_of_isCommandCell h
  obtain ⟨t, ht, ws', hws⟩ := Text.exists_line_of_words hw
  cases ha : Assembly.ofText text with
  | error f => exact ⟨f, rfl⟩
  | ok a =>
    -- The command would be the operation of a line, but it is none.
    have hoperation := Assembly.isOperation_of_mem_lines ha ht (SourceLine.op?_of_read? hn hws)
    rw [isOperation_of_read? hn] at hoperation
    cases hoperation

theorem isCommandCell_trimRight (text : Text) :
    isCommandCell (Text.trimRight text) = isCommandCell text := by
  rw [isCommandCell, isCommandCell,
    Text.apply_trimRight (fun t c hc => Text.words_concat_of_isBlank t hc)]

theorem runCell_of_not_isCommandCell {text : Text} (h : isCommandCell text = false) (m : Machine)
    (files : FileTree) : runCell m files text = runSource m (Text.trimRight text) := by
  rw [runCell]
  simp only [isCommandCell_trimRight, h, Bool.false_eq_true, if_false]

/-- Command cells and programs never overlap: no command cell can be assembled, so every program
that can be is run as one. -/
theorem command_cells_are_no_programs (text : Text) :
    (isCommandCell text = true → ∃ f, Assembly.ofText text = .error f) ∧
      ∀ a, Assembly.ofText text = .ok a → isCommandCell text = false ∧
        ∀ m files, runCell m files text = runSource m (Text.trimRight text) := by
  refine ⟨exists_error_of_isCommandCell, fun a ha => ?_⟩
  have hcell : isCommandCell text = false := by
    cases h : isCommandCell text with
    | false => rfl
    | true =>
      obtain ⟨f, hf⟩ := exists_error_of_isCommandCell h
      cases ha.symm.trans hf
  exact ⟨hcell, runCell_of_not_isCommandCell hcell⟩

def commandCell : Text := "\n  SET R1 5 ; five\nRun\n".toList

/-- A program that starts like a command cell but for its label. -/
def labelledCell : Text := "set: hlt\n".toList

theorem commandCell_or_labelledCell :
    (∃ f, Assembly.ofText commandCell = .error f) ∧ isCommandCell labelledCell = false := by
  obtain ⟨herror, -⟩ := command_cells_are_no_programs commandCell
  obtain ⟨-, hprogram⟩ := command_cells_are_no_programs labelledCell
  exact ⟨herror rfl, (hprogram _ rfl).1⟩

end Notebook
end WordMachine
