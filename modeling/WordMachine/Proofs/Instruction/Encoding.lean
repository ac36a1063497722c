import WordMachine.Instruction.Encode
import WordMachine.Proofs.Instruction.Fields
import WordMachine.Proofs.Numeral.Decimal
import WordMachine.Proofs.Results

namespace WordMachine

namespace Fields

/-- The operands before the mark of indirection. The index operations name no general register. -/
def leading (f : Fields) (m : Mnemonic) : List Int :=
  (if m.targetsIndex then [] else [(f.r.val : Int)]) ++ [(f.ix.val : Int), (f.address.val : Int)]

/-- The operands that state fields: direct addressing may be marked by a zero or not at all. -/
inductive StatedBy (f : Fields) (m : Mnemonic) : List Int → Prop
  | unmarked (hdirect : f.indirect = false) : StatedBy f m (f.leading m)
  | marked : StatedBy f m (f.leading m ++ [(f.indirect.toNat : Int)])

/-- The fields of a word that a source instruction is assembled to: the index operations have no
general register, and a halt has no operands at all. -/
structure AssembledAs (f : Fields) (m : Mnemonic) : Prop where
  opcode : f.opcode.val = m.code
  register : m.targetsIndex = true → f.r.val = 0
  halt : m = .hlt → f.word = 0

theorem ofInts_of_bounds {m : Mnemonic} {r ix i a : Int} (hr : 0 ≤ r ∧ r ≤ 3) (hx : 0 ≤ ix ∧ ix ≤ 3)
    (hi : 0 ≤ i ∧ i ≤ 1) (ha : 0 ≤ a ∧ a ≤ 31) :
    (ofInts m.code r ix i a).opcode.val = m.code ∧
      ((ofInts m.code r ix i a).r.val : Int) = r ∧ ((ofInts m.code r ix i a).ix.val : Int) = ix ∧
      ((ofInts m.code r ix i a).indirect.toNat : Int) = i ∧
      ((ofInts m.code r ix i a).address.val : Int) = a := by
  have hcode := m.code_lt
  obtain ⟨hopcode, hr', hix', hi', haddress'⟩ := ofInts_eq_emod m.code r ix i a
  exact ⟨by omega, hr'.trans (Int.emod_eq_of_lt hr.1 (by omega)),
    hix'.trans (Int.emod_eq_of_lt hx.1 (by omega)), hi'.trans (Int.emod_eq_of_lt hi.1 (by omega)),
    haddress'.trans (Int.emod_eq_of_lt ha.1 (by omega))⟩

end Fields

theorem Operand.check_eq_ok {o : Operand} {mnemonic : Text} {v u : Int}
    (h : o.check mnemonic v = .ok u) : u = v ∧ 0 ≤ v ∧ v ≤ o.limit := by
  unfold Operand.check at h
  split at h
  · next hv =>
    cases h
    exact ⟨rfl, hv⟩
  · cases h

theorem Operand.check_eq_error {o : Operand} {mnemonic : Text} {v : Int} {cause : Cause}
    (h : o.check mnemonic v = .error cause) : cause = .operandRange o mnemonic v := by
  unfold Operand.check at h
  split at h
  · cases h
  · cases h
    rfl

theorem Mnemonic.find_eq_error {t : Text} {cause : Cause} (h : Mnemonic.find t = .error cause) :
    cause = .unknownOpcode t := by
  unfold Mnemonic.find at h
  split at h
  · cases h
  · cases h
    rfl

theorem Mnemonic.find_eq_ok {t : Text} {m : Mnemonic} (h : Mnemonic.find t = .ok m) :
    Mnemonic.read? t = some m := by
  unfold Mnemonic.find at h
  split at h
  · next hm =>
    cases h
    exact hm
  · cases h

/-- Operands with the numbers that they stand for. Where none of them marks indirection, addressing
is direct. -/
inductive Denoted {α : Type} (denotes : Operand → α → Int → Prop) :
    List α → Int → Int → Int → Int → Prop
  | unmarked {r ix address : α} {vr vx va : Int} (hr : denotes .r r vr) (hix : denotes .ix ix vx)
    (haddress : denotes .address address va) : Denoted denotes [r, ix, address] vr vx va 0
  | marked {r ix address i : α} {vr vx va vi : Int} (hr : denotes .r r vr) (hix : denotes .ix ix vx)
    (haddress : denotes .address address va) (hi : denotes .indirect i vi) :
    Denoted denotes [r, ix, address, i] vr vx va vi

structure InBounds (r ix address i : Int) : Prop where
  r : 0 ≤ r ∧ r ≤ 3
  ix : 0 ≤ ix ∧ ix ≤ 3
  address : 0 ≤ address ∧ address ≤ 31
  indirect : 0 ≤ i ∧ i ≤ 1

section EncodeWith

variable {α : Type} {value : Operand → α → Except Cause Int} {mnemonic : Text} {operands : List α}

theorem operand_eq_ok_iff {o : Operand} {a : α} {v : Int} :
    (value o a >>= Operand.check o mnemonic) = .ok v ↔ value o a = .ok v ∧ 0 ≤ v ∧ v ≤ o.limit := by
  constructor
  · intro h
    obtain ⟨u, hu, hcheck⟩ := bind_eq_ok.1 h
    obtain ⟨rfl, hbounds⟩ := Operand.check_eq_ok hcheck
    exact ⟨hu, hbounds⟩
  · rintro ⟨hv, hbounds⟩
    exact bind_eq_ok.2 ⟨v, hv, if_pos hbounds⟩

theorem operand_eq_error {o : Operand} {a : α} {cause : Cause}
    (h : (value o a >>= Operand.check o mnemonic) = .error cause) :
    value o a = .error cause ∨ ∃ v, value o a = .ok v ∧ cause = .operandRange o mnemonic v := by
  obtain hvalue | ⟨v, hv, hcheck⟩ := bind_eq_error.1 h
  · exact .inl hvalue
  · exact .inr ⟨v, hv, Operand.check_eq_error hcheck⟩

/-- An instruction is encoded if it names an operation and has three or four operands, each of which
stands for a number within its bounds. -/
theorem encodeWith_eq_ok_iff {w : Word} :
    encodeWith value mnemonic operands = .ok w ↔
      ∃ op r ix address i, Mnemonic.read? mnemonic = some op ∧
        Denoted (fun o a v => value o a = .ok v) operands r ix address i ∧
        InBounds r ix address i ∧ w = pack op.code r ix i address := by
  constructor
  · intro h
    unfold encodeWith at h
    obtain ⟨op, hop, h⟩ := bind_eq_ok.1 h
    have hread := Mnemonic.find_eq_ok hop
    simp only at h
    -- Three operands, or four with the mark of indirection; any other number fails.
    split at h
    · obtain ⟨r, hr, h⟩ := bind_eq_ok.1 h
      obtain ⟨ix, hix, h⟩ := bind_eq_ok.1 h
      obtain ⟨address, haddress, hw⟩ := bind_eq_ok.1 h
      obtain ⟨hr, hr'⟩ := operand_eq_ok_iff.1 hr
      obtain ⟨hix, hix'⟩ := operand_eq_ok_iff.1 hix
      obtain ⟨haddress, haddress'⟩ := operand_eq_ok_iff.1 haddress
      exact ⟨op, r, ix, address, 0, hread, .unmarked hr hix haddress,
        ⟨hr', hix', haddress', by decide⟩, (Except.ok.inj hw).symm⟩
    · obtain ⟨r, hr, h⟩ := bind_eq_ok.1 h
      obtain ⟨ix, hix, h⟩ := bind_eq_ok.1 h
      obtain ⟨address, haddress, h⟩ := bind_eq_ok.1 h
      obtain ⟨i, hi, hw⟩ := bind_eq_ok.1 h
      obtain ⟨hr, hr'⟩ := operand_eq_ok_iff.1 hr
      obtain ⟨hix, hix'⟩ := operand_eq_ok_iff.1 hix
      obtain ⟨haddress, haddress'⟩ := operand_eq_ok_iff.1 haddress
      obtain ⟨hi, hi'⟩ := operand_eq_ok_iff.1 hi
      exact ⟨op, r, ix, address, i, hread, .marked hr hix haddress hi,
        ⟨hr', hix', haddress', hi'⟩, (Except.ok.inj hw).symm⟩
    · cases h
  · rintro ⟨op, r, ix, address, i, hread, hoperands, hbounds, rfl⟩
    have hfind : Mnemonic.find mnemonic = .ok op := by rw [Mnemonic.find, hread]
    unfold encodeWith
    refine bind_eq_ok.2 ⟨op, hfind, ?_⟩
    cases hoperands with
    | unmarked hr hix haddress =>
      exact bind_eq_ok.2 ⟨r, operand_eq_ok_iff.2 ⟨hr, hbounds.r⟩,
        bind_eq_ok.2 ⟨ix, operand_eq_ok_iff.2 ⟨hix, hbounds.ix⟩,
          bind_eq_ok.2 ⟨address, operand_eq_ok_iff.2 ⟨haddress, hbounds.address⟩, rfl⟩⟩⟩
    | marked hr hix haddress hi =>
      exact bind_eq_ok.2 ⟨r, operand_eq_ok_iff.2 ⟨hr, hbounds.r⟩,
        bind_eq_ok.2 ⟨ix, operand_eq_ok_iff.2 ⟨hix, hbounds.ix⟩,
          bind_eq_ok.2 ⟨address, operand_eq_ok_iff.2 ⟨haddress, hbounds.address⟩,
            bind_eq_ok.2 ⟨i, operand_eq_ok_iff.2 ⟨hi, hbounds.indirect⟩, rfl⟩⟩⟩⟩

/-- Why an instruction is refused: it names no operation, it has too few or too many operands, or
one of them stands for no number or for one that is out of its bounds. -/
inductive EncodingRefusal (value : Operand → α → Except Cause Int) (mnemonic : Text)
    (operands : List α) : Cause → Prop
  | name : EncodingRefusal value mnemonic operands (.unknownOpcode mnemonic)
  | count : EncodingRefusal value mnemonic operands (.operandCount mnemonic operands.length)
  | operand {o : Operand} {a : α} {cause : Cause} (ha : a ∈ operands)
    (h : value o a = .error cause) : EncodingRefusal value mnemonic operands cause
  | range {o : Operand} {a : α} {v : Int} (ha : a ∈ operands) (h : value o a = .ok v) :
    EncodingRefusal value mnemonic operands (.operandRange o mnemonic v)

theorem encodingRefusal_of_operand {o : Operand} {a : α} {cause : Cause} (ha : a ∈ operands)
    (h : (value o a >>= Operand.check o mnemonic) = .error cause) :
    EncodingRefusal value mnemonic operands cause := by
  obtain hvalue | ⟨v, hv, rfl⟩ := operand_eq_error h
  · exact .operand ha hvalue
  · exact .range ha hv

theorem encodingRefusal_of_encodeWith {cause : Cause}
    (h : encodeWith value mnemonic operands = .error cause) :
    EncodingRefusal value mnemonic operands cause := by
  unfold encodeWith at h
  obtain hop | ⟨op, -, h⟩ := bind_eq_error.1 h
  · rw [Mnemonic.find_eq_error hop]
    exact .name
  · simp only at h
    split at h
    · obtain hr | ⟨_, -, h⟩ := bind_eq_error.1 h
      · exact encodingRefusal_of_operand (by simp) hr
      obtain hix | ⟨_, -, h⟩ := bind_eq_error.1 h
      · exact encodingRefusal_of_operand (by simp) hix
      obtain haddress | ⟨_, -, h⟩ := bind_eq_error.1 h
      · exact encodingRefusal_of_operand (by simp) haddress
      cases h
    · obtain hr | ⟨_, -, h⟩ := bind_eq_error.1 h
      · exact encodingRefusal_of_operand (by simp) hr
      obtain hix | ⟨_, -, h⟩ := bind_eq_error.1 h
      · exact encodingRefusal_of_operand (by simp) hix
      obtain haddress | ⟨_, -, h⟩ := bind_eq_error.1 h
      · exact encodingRefusal_of_operand (by simp) haddress
      obtain hi | ⟨_, -, h⟩ := bind_eq_error.1 h
      · exact encodingRefusal_of_operand (by simp) hi
      cases h
    · cases h
      exact .count

end EncodeWith

theorem encodeValues_eq_ok {mnemonic : Text} {values : List Int} {w : Word}
    (h : encodeValues mnemonic values = .ok w) :
    ∃ (m : Mnemonic) (f : Fields), Mnemonic.read? mnemonic = some m ∧ f.opcode.val = m.code ∧
      w = f.word ∧
      (f.indirect = false ∧ values = [(f.r.val : Int), (f.ix.val : Int), (f.address.val : Int)] ∨
        values = [(f.r.val : Int), (f.ix.val : Int), (f.address.val : Int),
          (f.indirect.toNat : Int)]) := by
  obtain ⟨m, r, ix, address, i, hread, hoperands, hbounds, rfl⟩ := encodeWith_eq_ok_iff.1 h
  obtain ⟨hop, h₁, h₂, h₃, h₄⟩ :=
    Fields.ofInts_of_bounds (m := m) hbounds.r hbounds.ix hbounds.indirect hbounds.address
  refine ⟨m, _, hread, hop, rfl, ?_⟩
  cases hoperands with
  | unmarked hr hix haddress =>
    rw [h₁, h₂, h₄, Except.ok.inj hr, Except.ok.inj hix, Except.ok.inj haddress]
    exact .inl ⟨rfl, rfl⟩
  | marked hr hix haddress hi =>
    rw [h₁, h₂, h₃, h₄, Except.ok.inj hr, Except.ok.inj hix, Except.ok.inj haddress,
      Except.ok.inj hi]
    exact .inr rfl

theorem encodeValues_fields {mnemonic : Text} {m : Mnemonic} {f : Fields}
    (hread : Mnemonic.read? mnemonic = some m) (hcode : f.opcode.val = m.code) :
    encodeValues mnemonic [(f.r.val : Int), (f.ix.val : Int), (f.address.val : Int),
        (f.indirect.toNat : Int)] = .ok f.word ∧
      (f.indirect = false →
        encodeValues mnemonic [(f.r.val : Int), (f.ix.val : Int), (f.address.val : Int)] =
          .ok f.word) := by
  have hbit := Bool.toNat_le f.indirect
  have hbounds : InBounds f.r.val f.ix.val f.address.val f.indirect.toNat :=
    ⟨by omega, by omega, by omega, by omega⟩
  have hpack : f.word = pack m.code f.r.val f.ix.val f.indirect.toNat f.address.val := by
    rw [pack, ← hcode, Fields.ofInts_val]
  refine ⟨?_, fun hdirect => ?_⟩
  · exact encodeWith_eq_ok_iff.2 ⟨m, _, _, _, _, hread, .marked rfl rfl rfl rfl, hbounds, hpack⟩
  · rw [hdirect] at hbounds hpack
    exact encodeWith_eq_ok_iff.2 ⟨m, _, _, _, _, hread, .unmarked rfl rfl rfl, hbounds, hpack⟩

theorem encodeWith_map {α β : Type} {value : Operand → α → Except Cause Int}
    {value' : Operand → β → Except Cause Int} {f : β → α} {operands : List β}
    (h : ∀ o, ∀ b ∈ operands, value o (f b) = value' o b) (mnemonic : Text) :
    encodeWith value mnemonic (operands.map f) = encodeWith value' mnemonic operands := by
  unfold encodeWith
  rw [List.length_map]
  refine congrArg (Mnemonic.find mnemonic >>= ·) (funext fun m => ?_)
  match operands with
  | [] => rfl
  | [_] => rfl
  | [_, _] => rfl
  | [r, ix, a] => simp [h]
  | [r, ix, a, i] => simp [h]
  | _ :: _ :: _ :: _ :: _ :: _ => rfl

theorem encode_decimals {values : List Int} (h : ∀ v ∈ values, Numeral.isWritable v = true)
    (mnemonic : Text) : encode mnemonic (values.map Numeral.decimal) = encodeValues mnemonic values := by
  apply encodeWith_map
  intro o v hv
  rw [Numeral.readInteger_decimal (h v hv)]

/-- Known numbers are refused for the name of the operation, for how many they are, or for one of
them that is out of its bounds. -/
theorem encodeValues_eq_error {mnemonic : Text} {values : List Int} {cause : Cause}
    (h : encodeValues mnemonic values = .error cause) :
    cause = .unknownOpcode mnemonic ∨ cause = .operandCount mnemonic values.length ∨
      ∃ o, ∃ v ∈ values, cause = .operandRange o mnemonic v := by
  cases encodingRefusal_of_encodeWith h with
  | name => exact .inl rfl
  | count => exact .inr (.inl rfl)
  | operand _ h => cases h
  | @range o a v ha hv => exact .inr (.inr ⟨o, v, Except.ok.inj hv ▸ ha, rfl⟩)

end WordMachine
