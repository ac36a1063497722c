import WordMachine.Proofs.Instruction.Disassembly

namespace WordMachine

abbrev ReadOperands : List Text → Int → Int → Int → Int → Prop :=
  Denoted fun _ token v => Numeral.readInteger .decimal token = .ok v

/-- A source instruction that has a word, with its operation and the numbers of its operands. -/
structure ValidInstruction (mnemonic : Text) (operands : List Text) (op : Mnemonic)
    (r ix address i : Int) : Prop where
  name : op.name.toList = Text.upper mnemonic
  operands : ReadOperands operands r ix address i
  bounds : InBounds r ix address i

structure Fields.Hold (f : Fields) (op : Mnemonic) (r ix address i : Int) : Prop where
  opcode : f.opcode.val = op.code
  r : (f.r.val : Int) = r
  ix : (f.ix.val : Int) = ix
  address : (f.address.val : Int) = address
  indirect : (f.indirect.toNat : Int) = i

namespace Mnemonic

variable {op op' : Mnemonic} {t : Text}

theorem upper_name (op : Mnemonic) : Text.upper op.name.toList = op.name.toList := by
  cases op <;> decide

theorem read?_eq_some_iff : read? t = some op ↔ op.name.toList = Text.upper t := by
  constructor
  · intro h
    simpa [read?] using List.find?_some h
  · intro h
    rw [← read?_name op, read?, read?, upper_name, h]

theorem eq_of_name (h : op.name.toList = op'.name.toList) : op = op' := by
  have hread := read?_name op
  rw [h, read?_name op'] at hread
  exact (Option.some.inj hread).symm

end Mnemonic

namespace Denoted

variable {α : Type} {denotes : Operand → α → Int → Prop} {operands : List α}
  {r ix address i r' ix' address' i' : Int}

theorem imp {denotes' : Operand → α → Int → Prop} (himp : ∀ o a v, denotes o a v → denotes' o a v)
    (h : Denoted denotes operands r ix address i) : Denoted denotes' operands r ix address i := by
  cases h with
  | unmarked hr hix haddress =>
    exact .unmarked (himp _ _ _ hr) (himp _ _ _ hix) (himp _ _ _ haddress)
  | marked hr hix haddress hi =>
    exact .marked (himp _ _ _ hr) (himp _ _ _ hix) (himp _ _ _ haddress) (himp _ _ _ hi)

theorem unique
    (hdenotes : ∀ o a v v', denotes o a v → denotes o a v' → v = v')
    (h : Denoted denotes operands r ix address i)
    (h' : Denoted denotes operands r' ix' address' i') :
    r = r' ∧ ix = ix' ∧ address = address' ∧ i = i' := by
  cases h with
  | unmarked hr hix haddress =>
    cases h' with
    | unmarked hr' hix' haddress' =>
      exact ⟨hdenotes _ _ _ _ hr hr', hdenotes _ _ _ _ hix hix',
        hdenotes _ _ _ _ haddress haddress', rfl⟩
  | marked hr hix haddress hi =>
    cases h' with
    | marked hr' hix' haddress' hi' =>
      exact ⟨hdenotes _ _ _ _ hr hr', hdenotes _ _ _ _ hix hix',
        hdenotes _ _ _ _ haddress haddress', hdenotes _ _ _ _ hi hi'⟩

end Denoted

theorem ReadOperands.unique {operands : List Text} {r ix address i r' ix' address' i' : Int}
    (h : ReadOperands operands r ix address i) (h' : ReadOperands operands r' ix' address' i') :
    r = r' ∧ ix = ix' ∧ address = address' ∧ i = i' :=
  Denoted.unique (fun _ _ _ _ hv hv' => Except.ok.inj (hv.symm.trans hv')) h h'

theorem hold_decode_pack (op : Mnemonic) {r ix address i : Int} (h : InBounds r ix address i) :
    (decode (pack op.code r ix i address).toNat).Hold op r ix address i := by
  rw [pack, Fields.decode_toNat_word]
  obtain ⟨hop, hr, hix, hi, haddress⟩ :=
    Fields.ofInts_of_bounds (m := op) h.r h.ix h.indirect h.address
  exact ⟨hop, hr, hix, haddress, hi⟩

section Encode

variable {mnemonic mnemonic' : Text} {operands operands' : List Text} {w w' : Word}

theorem decimalOperand_eq_ok_iff {o : Operand} {token : Text} {v : Int} :
    (match Numeral.readInteger .decimal token with
      | .ok v => .ok v
      | .error _ => .error (.badOperand o mnemonic token) : Except Cause Int) = .ok v ↔
      Numeral.readInteger .decimal token = .ok v := by
  cases Numeral.readInteger .decimal token with
  | ok u => exact (Except.ok.injEq u v).to_iff.trans (Except.ok.injEq u v).to_iff.symm
  | error e => exact ⟨nofun, nofun⟩

theorem encode_eq_ok_iff :
    encode mnemonic operands = .ok w ↔ ∃ op r ix address i,
      ValidInstruction mnemonic operands op r ix address i ∧ w = pack op.code r ix i address := by
  rw [encode, encodeWith_eq_ok_iff]
  constructor
  · rintro ⟨op, r, ix, address, i, hread, hoperands, hbounds, hw⟩
    have hdecimal : ReadOperands operands r ix address i :=
      hoperands.imp fun _ _ _ => decimalOperand_eq_ok_iff.1
    exact ⟨op, r, ix, address, i, ⟨Mnemonic.read?_eq_some_iff.1 hread, hdecimal, hbounds⟩, hw⟩
  · rintro ⟨op, r, ix, address, i, h, hw⟩
    exact ⟨op, r, ix, address, i, Mnemonic.read?_eq_some_iff.2 h.name,
      h.operands.imp fun _ _ _ => decimalOperand_eq_ok_iff.2, h.bounds, hw⟩

theorem encode_eq_error {cause : Cause} (h : encode mnemonic operands = .error cause) :
    cause.kind = .encoding ∧ Failure.ofCause cause = .reported cause none := by
  cases encodingRefusal_of_encodeWith h with
  | name => exact ⟨rfl, rfl⟩
  | count => exact ⟨rfl, rfl⟩
  | operand _ hvalue =>
    split at hvalue
    · cases hvalue
    · cases hvalue
      exact ⟨rfl, rfl⟩
  | range _ hvalue =>
    have hwritable := Numeral.isWritable_of_readInteger (decimalOperand_eq_ok_iff.1 hvalue)
    exact ⟨rfl, Failure.report_of_forall (by simpa [Cause.numbers] using hwritable)⟩

/-- Instructions with one word agree in their operation and in the numbers of their operands. -/
theorem encode_eq_encode_iff (h : encode mnemonic operands = .ok w)
    (h' : encode mnemonic' operands' = .ok w') :
    w = w' ↔ Text.upper mnemonic = Text.upper mnemonic' ∧ ∃ r ix address i,
      ReadOperands operands r ix address i ∧ ReadOperands operands' r ix address i := by
  obtain ⟨op, r, ix, address, i, hvalid, rfl⟩ := encode_eq_ok_iff.1 h
  obtain ⟨op', r', ix', address', i', hvalid', rfl⟩ := encode_eq_ok_iff.1 h'
  constructor
  · intro hw
    have hold := hold_decode_pack op hvalid.bounds
    have hold' := hold_decode_pack op' hvalid'.bounds
    rw [← hw] at hold'
    obtain rfl := Mnemonic.code_injective (hold.opcode.symm.trans hold'.opcode)
    obtain rfl := hold.r.symm.trans hold'.r
    obtain rfl := hold.ix.symm.trans hold'.ix
    obtain rfl := hold.address.symm.trans hold'.address
    obtain rfl := hold.indirect.symm.trans hold'.indirect
    exact ⟨hvalid.name.symm.trans hvalid'.name, r, ix, address, i, hvalid.operands,
      hvalid'.operands⟩
  · rintro ⟨hupper, _, _, _, _, hread, hread'⟩
    obtain rfl := Mnemonic.eq_of_name (hvalid.name.trans (hupper.trans hvalid'.name.symm))
    obtain ⟨rfl, rfl, rfl, rfl⟩ := hvalid.operands.unique hread
    obtain ⟨rfl, rfl, rfl, rfl⟩ := hvalid'.operands.unique hread'
    rfl

end Encode

/-- The valid instructions are encoded, each into a word that is decoded to its numbers, and every
other instruction is refused in encoding. -/
theorem encode_exact (mnemonic : Text) (operands : List Text) :
    ((∃ w, encode mnemonic operands = .ok w) ↔
      ∃ op r ix address i, ValidInstruction mnemonic operands op r ix address i) ∧
    (∀ w op r ix address i, encode mnemonic operands = .ok w →
      ValidInstruction mnemonic operands op r ix address i →
        w.toNat < 2 ^ 16 ∧ (decode w.toNat).Hold op r ix address i) ∧
    (∀ mnemonic' operands' w w', encode mnemonic operands = .ok w →
      encode mnemonic' operands' = .ok w' →
        (w = w' ↔ Text.upper mnemonic = Text.upper mnemonic' ∧ ∃ r ix address i,
          ReadOperands operands r ix address i ∧ ReadOperands operands' r ix address i)) ∧
    ((¬ ∃ op r ix address i, ValidInstruction mnemonic operands op r ix address i) →
      ∃ cause, encode mnemonic operands = .error cause ∧ cause.kind = .encoding ∧
        Failure.ofCause cause = .reported cause none) := by
  have haccepts : (∃ w, encode mnemonic operands = .ok w) ↔
      ∃ op r ix address i, ValidInstruction mnemonic operands op r ix address i := by
    constructor
    · rintro ⟨w, hw⟩
      obtain ⟨op, r, ix, address, i, h, -⟩ := encode_eq_ok_iff.1 hw
      exact ⟨op, r, ix, address, i, h⟩
    · rintro ⟨op, r, ix, address, i, h⟩
      exact ⟨_, encode_eq_ok_iff.2 ⟨op, r, ix, address, i, h, rfl⟩⟩
  refine ⟨haccepts, ?_, fun _ _ _ _ => encode_eq_encode_iff, fun hinvalid => ?_⟩
  · intro w op r ix address i hw h
    obtain ⟨op', r', ix', address', i', h', rfl⟩ := encode_eq_ok_iff.1 hw
    -- A mnemonic and operands state one instruction, so the word is that of the given one.
    obtain rfl := Mnemonic.eq_of_name (h.name.trans h'.name.symm)
    obtain ⟨rfl, rfl, rfl, rfl⟩ := h.operands.unique h'.operands
    exact ⟨BitVec.isLt _, hold_decode_pack _ h.bounds⟩
  · cases hencode : encode mnemonic operands with
    | ok w => exact absurd (haccepts.1 ⟨w, hencode⟩) hinvalid
    | error cause => exact ⟨cause, rfl, encode_eq_error hencode⟩

/-- A sign, an underscore, blanks and a mark of direct addressing do not change the word. -/
theorem encode_spellings_ldr :
    ∃ w, encode "ldr".toList ["+3".toList, "0".toList, "1_0".toList] = .ok w ∧
      encode "LDR".toList ["3".toList, " 0".toList, "10".toList, "0".toList] = .ok w ∧
      (decode w.toNat).Hold .ldr 3 0 10 0 := by
  have hvalid : ValidInstruction "ldr".toList ["+3".toList, "0".toList, "1_0".toList]
      .ldr 3 0 10 0 :=
    ⟨by decide, .unmarked rfl rfl rfl, by decide, by decide, by decide, by decide⟩
  have hvalid' : ValidInstruction "LDR".toList ["3".toList, " 0".toList, "10".toList, "0".toList]
      .ldr 3 0 10 0 :=
    ⟨by decide, .marked rfl rfl rfl rfl, by decide, by decide, by decide, by decide⟩
  obtain ⟨w, hw⟩ := (encode_exact _ _).1.2 ⟨_, _, _, _, _, hvalid⟩
  obtain ⟨w', hw'⟩ := (encode_exact _ _).1.2 ⟨_, _, _, _, _, hvalid'⟩
  have hsame : w = w' := ((encode_exact _ _).2.2.1 _ _ w w' hw hw').2
    ⟨by decide, 3, 0, 10, 0, hvalid.operands, hvalid'.operands⟩
  exact ⟨w, hw, hsame ▸ hw', ((encode_exact _ _).2.1 w _ _ _ _ _ hw hvalid).2⟩

end WordMachine
