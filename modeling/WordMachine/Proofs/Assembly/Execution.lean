import WordMachine.Proofs.Assembly.Values
import WordMachine.Proofs.Console.Loading
import WordMachine.Proofs.Machine.Demand

namespace WordMachine

open Emission

def Machine.prepare (m : Machine) (general index : Vector Word 4) (pc : Nat) : Machine :=
  { m with registers := { m.registers with general, index, pc := BitVec.ofNat 12 pc } }

namespace Assembly

variable {text : Text} {a : Assembly} {before after : List PlacedLine} {p : PlacedLine}
  {address : Nat}

/-- The last word given for an address is what memory holds there after loading. -/
theorem get_loaded (h : ofText text = .ok a) (hlines : a.lines = before ++ p :: after)
    (hplace : p.place = .at address) (hlast : ∀ q ∈ after, q.place ≠ .at address) {w : Word}
    (hw : p.word? = some w) {i : Fin memorySize} (hi : i.val = address) (m : Machine)
    (start? : Option Int) :
    (m.loadImage a.records start?).machine.memory.get i = w := by
  have hrecord : p.record? = some ⟨address, w.toNat⟩ := by simp [PlacedLine.record?, hplace, hw]
  have hrecords : a.records = before.filterMap PlacedLine.record? ++
      ⟨address, w.toNat⟩ :: after.filterMap PlacedLine.record? := by
    rw [records, hlines, List.filterMap_append, List.filterMap_cons_some hrecord]
  -- No record that comes later has the address.
  have hother : ∀ r ∈ after.filterMap PlacedLine.record?, r.address ≠ (i.val : Int) :=
    PlacedLine.address_ne_of_place_ne fun q hq => hi ▸ hlast q hq
  rw [Machine.loadImage_of_fits (fun r hr => fits_of_mem_records h hr)]
  change (a.records.foldl Memory.deposit .zero).get i = w
  rw [hrecords, Memory.get_foldl_deposit_append (congrArg Int.ofNat hi.symm) hother]
  simp

/-- A step from the address of a source instruction does what its operation asks for with its
operands, whatever the general and index registers hold. The labels among the operands are the
addresses of their lines. -/
theorem step_meets_source (h : ofText text = .ok a) (hlines : a.lines = before ++ p :: after)
    {op : Text} (hop : p.line.op? = some op) (hplace : p.place = .at address)
    (hdata : isData op = false) (hlast : ∀ q ∈ after, q.place ≠ .at address) :
    (∀ q ∈ a.lines, ∀ l n, q.line.label? = some l → q.place = .at n →
      a.symbols.get? l = some (n : Int)) ∧
    ∃ (mnemonic : Mnemonic) (f : Fields), Mnemonic.read? op = some mnemonic ∧
      (mnemonic ≠ .hlt → ∃ values, List.Forall₂ a.symbols.Denotes p.line.operands values ∧
        f.StatedBy mnemonic values) ∧
      ∀ (m₀ : Machine) (start? : Option Int) (general index : Vector Word 4),
        let m := (m₀.loadImage a.records start?).machine.prepare general index address
        CommandOutcome.Succeeds (m₀.loadImage a.records start?) ∧
          m.registers.read .pc = address ∧ m.state = .ready ∧
          m.Meets m.step.machine (m.demand f mnemonic) := by
  refine ⟨fun q hq l n => get?_label h hq, ?_⟩
  have hp : p ∈ a.lines := by simp [hlines]
  -- A line with an address is settled with the word of its value.
  obtain ⟨v, number, haddress, hvalue, hword⟩ : ∃ v number, address < memorySize ∧
      value a.symbols number op p.line.operands = .ok v ∧ p.word? = some (BitVec.ofInt 16 v) := by
    rcases settled_of_mem h hp with hop' | ⟨hop', hloc⟩ | ⟨hop', -, haddress, hvalue⟩
    · cases hplace
    · cases hplace
    · cases hplace
      obtain rfl : op = _ := Option.some.inj (hop.symm.trans hop')
      exact ⟨_, _, haddress, hvalue, rfl⟩
  obtain ⟨mnemonic, f, hread, ⟨hcode, -, -⟩, rfl, hstated⟩ := value_eq_ok hdata hvalue
  refine ⟨mnemonic, f, hread, hstated, ?_⟩
  intro m₀ start? general index m
  have hfits : ∀ r ∈ a.records, r.Fits := fun r hr => fits_of_mem_records h hr
  have hpc : m.registers.read .pc = address := by
    have hlt : address < 2048 := haddress
    exact Nat.mod_eq_of_lt (show address < 2 ^ 12 by omega)
  have hready : m.state = .ready := by
    change (m₀.loadImage a.records start?).machine.state = .ready
    rw [Machine.loadImage_of_fits hfits]
    rfl
  have hfetch : m.memory.get ⟨address, haddress⟩ = f.word := by
    have hget := get_loaded h hlines hplace hlast hword (i := ⟨address, haddress⟩) rfl m₀ start?
    exact hget.trans (by simp)
  exact ⟨Machine.succeeds_loadImage hfits m₀ start?, hpc, hready,
    Machine.Meets.step hready hpc hfetch hcode⟩

/-- A program whose first instruction has a label among its operands, an index register and
indirection. -/
def indexedLoad : Text := " LOC 6\nNext: LDR 3,2,Table,1 ; indexed\n HLT\nTable: Data 12\n".toList

theorem indexedLoad_step_meets :
    ∃ (a : Assembly) (op : Text), ofText indexedLoad = .ok a ∧
      (a.lines.map fun p => (p.place, p.line.op?))[1]? = some (.at 6, some op) ∧
      ∃ f : Fields,
        let m := (Machine.powerOn.loadImage a.records none).machine.prepare
          (Vector.replicate 4 1) (Vector.replicate 4 2) 6
        m.Meets m.step.machine (m.demand f .ldr) := by
  refine ⟨_, "LDR".toList, rfl, rfl, ?_⟩
  obtain ⟨-, mnemonic, f, hread, -, hmeets⟩ := @step_meets_source indexedLoad _ [_] [_, _] _ 6 rfl rfl
    "LDR".toList rfl rfl (by decide) (by decide)
  have hldr : Mnemonic.read? "LDR".toList = some .ldr := by decide
  obtain rfl : mnemonic = .ldr := Option.some.inj (hread.symm.trans hldr)
  exact ⟨f, (hmeets .powerOn none _ _).2.2.2⟩

end Assembly
end WordMachine
