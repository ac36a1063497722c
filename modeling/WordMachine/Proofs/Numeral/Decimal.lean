import Mathlib.Data.Nat.Digits.Lemmas
import WordMachine.Proofs.Text.Words
import WordMachine.Numeral.Reading

namespace WordMachine.Numeral

def decimal (v : Int) : Text := (toString v).toList

theorem exists_zero_of_decimalDigit? {c : Char} {d : Nat} (h : decimalDigit? c = some d) :
    ∃ z ∈ 0x30 :: digitZeros, c.toNat = z + d ∧ d < 10 := by
  unfold decimalDigit? at h
  split at h
  · split at h
    · next hc =>
      cases h
      have hle : 0x30 ≤ c.toNat ∧ c.toNat ≤ 0x39 := by
        simpa [Char.le_def, UInt32.le_iff_toNat_le] using hc
      exact ⟨0x30, List.mem_cons_self, by omega, by omega⟩
    · cases h
  · obtain ⟨z, hz, rfl⟩ := Option.map_eq_some_iff.1 h
    have hrange := List.find?_some hz
    simp only [Bool.and_eq_true, decide_eq_true_eq] at hrange
    exact ⟨z, List.mem_cons_of_mem _ (List.mem_of_find?_eq_some hz), by omega, by omega⟩

theorem lt_of_decimalDigit? {c : Char} {d : Nat} (h : decimalDigit? c = some d) : d < 10 := by
  obtain ⟨-, -, -, hd⟩ := exists_zero_of_decimalDigit? h
  exact hd

theorem isBlank_eq_false_of_isDecimalDigit {c : Char} (h : isDecimalDigit c = true) :
    Text.isBlank c = false := by
  obtain ⟨d, hd⟩ := Option.isSome_iff_exists.1 h
  obtain ⟨z, hz, hc, hlt⟩ := exists_zero_of_decimalDigit? hd
  have hapart : ∀ z ∈ 0x30 :: digitZeros, ∀ r ∈ Text.blankRanges, r.2 < z ∨ z + 10 ≤ r.1 := by
    decide
  simp only [Text.isBlank, Text.inRanges, List.any_eq_false, Bool.and_eq_true, decide_eq_true_eq]
  intro r hr hin
  rcases hapart z hz r hr with hlow | hhigh <;> omega

theorem decimalDigit?_of_isDigit {c : Char} (h : c.isDigit = true) :
    decimalDigit? c = some (c.toNat - 0x30) := by
  rw [Char.isDigit_iff_toNat] at h
  obtain ⟨hlow, hhigh⟩ : 0x30 ≤ c.toNat ∧ c.toNat ≤ 0x39 := h
  have hc : '0' ≤ c ∧ c ≤ '9' := by
    simp only [Char.le_def, UInt32.le_iff_toNat_le]
    exact ⟨hlow, hhigh⟩
  rw [decimalDigit?, if_pos (by omega), if_pos hc]

theorem isDecimalDigit_of_isDigit {c : Char} (h : c.isDigit = true) : isDecimalDigit c = true := by
  rw [isDecimalDigit, decimalDigit?_of_isDigit h]
  rfl

theorem ne_of_digit? (base : Base) {c mark : Char} (h : (base.digit? c).isSome = true)
    (hmark : base.digit? mark = none) : c ≠ mark := by
  rintro rfl
  rw [hmark] at h
  cases h

theorem takeWhile_dropWhile_append {p : Char → Bool} {run after : Text} (hrun : ∀ c ∈ run, p c = true)
    (hafter : ∀ c ∈ after, p c = false) :
    (run ++ after).takeWhile p = run ∧ (run ++ after).dropWhile p = after := by
  rw [List.takeWhile_append_of_pos hrun, List.dropWhile_append_of_pos hrun]
  cases after with
  | nil => simp
  | cons c after => simp [hafter c List.mem_cons_self]

theorem groupedDigits?_of_digits {base : Base} {digits : Text} (hne : digits ≠ [])
    (hdigits : ∀ c ∈ digits, (base.digit? c).isSome = true) :
    groupedDigits? base digits = some (digits.filterMap base.digit?) := by
  have hsplit : Text.splitOn '_' digits = [digits] := by
    apply Text.splitWhere_of_forall
    intro c hc
    exact beq_eq_false_iff_ne.2 (ne_of_digit? base (hdigits c hc) (by cases base <;> decide))
  simp only [groupedDigits?, hsplit, List.any_cons, List.any_nil, List.flatten_singleton]
  rw [if_neg (by simpa using hne)]

theorem isBlank_eq_false_of_hexLetter? {c : Char} (h : (hexLetter? c).isSome = true) :
    Text.isBlank c = false := by
  have hrange : 0x61 ≤ c.toNat ∧ c.toNat ≤ 0x66 ∨ 0x41 ≤ c.toNat ∧ c.toNat ≤ 0x46 := by
    unfold hexLetter? at h
    split at h
    · next hc => exact .inl (by simpa [Char.le_def, UInt32.le_iff_toNat_le] using hc)
    · split at h
      · next hc => exact .inr (by simpa [Char.le_def, UInt32.le_iff_toNat_le] using hc)
      · cases h
  exact Text.isBlank_eq_false_of_ascii (by omega) (by omega)

theorem isBlank_eq_false_of_digit? {base : Base} {c : Char} (h : (base.digit? c).isSome = true) :
    Text.isBlank c = false := by
  cases base with
  | decimal => exact isBlank_eq_false_of_isDecimalDigit h
  | hexadecimal =>
    cases hdigit : decimalDigit? c with
    | some d => exact isBlank_eq_false_of_isDecimalDigit (congrArg Option.isSome hdigit)
    | none =>
      have hletter : (hexLetter? c).isSome = true := by
        simpa [Base.digit?, hdigit] using h
      exact isBlank_eq_false_of_hexLetter? hletter

/-- What is left to read after the sign and the mark decides the number: a run of digits, and
blanks. -/
theorem readInteger_of_run (base : Base) {t body run after : Text} {sign : Int}
    (hsign : splitSign (t.dropWhile isEdgeBlank) = (sign, body))
    (hmark : (if base = .hexadecimal then dropHexMark body else body) = run ++ after)
    (hne : run ≠ []) (hrun : ∀ c ∈ run, (base.digit? c).isSome = true)
    (hlen : base = .decimal → run.length ≤ maxDigits) (hafter : ∀ c ∈ after, isEdgeBlank c = true) :
    readInteger base t = .ok (sign * ofDigits base.radix (run.filterMap base.digit?)) := by
  have hin : ∀ c ∈ run, (c = '_' || (base.digit? c).isSome) = true := by
    intro c hc
    rw [hrun c hc, Bool.or_true]
  -- The run ends where the blanks begin, since no blank is a digit or an underscore.
  have hstop : ∀ c ∈ after, (c = '_' || (base.digit? c).isSome) = false := by
    intro c hc
    have hblank := hafter c hc
    rw [Bool.or_eq_false_iff, decide_eq_false_iff_not, Bool.eq_false_iff]
    constructor
    · rintro rfl
      exact absurd hblank (by decide)
    · intro hdigit
      rw [isEdgeBlank, isBlank_eq_false_of_digit? hdigit] at hblank
      cases hblank
  obtain ⟨htake, hdrop⟩ := takeWhile_dropWhile_append hin hstop
  have hcount : ¬ (base = .decimal ∧ maxDigits < (run.filterMap base.digit?).length) := by
    rintro ⟨hbase, hlt⟩
    have hle := List.length_filterMap_le base.digit? run
    have hshort := hlen hbase
    omega
  unfold readInteger
  simp only [hsign, hmark, htake, hdrop, groupedDigits?_of_digits hne hrun]
  rw [if_neg hcount, if_pos (List.all_eq_true.2 hafter)]

theorem splitSign_of_run (base : Base) {run : Text} (after : Text) (hne : run ≠ [])
    (hrun : ∀ c ∈ run, (base.digit? c).isSome = true) :
    splitSign ((run ++ after).dropWhile isEdgeBlank) = (1, run ++ after) := by
  obtain ⟨c, rest, rfl⟩ := List.exists_cons_of_ne_nil hne
  have hc := hrun c List.mem_cons_self
  have hblank : ¬ isEdgeBlank c = true := by
    rw [isEdgeBlank, isBlank_eq_false_of_digit? hc, Bool.false_and]
    exact Bool.false_ne_true
  rw [List.cons_append, List.dropWhile_cons_of_neg hblank, splitSign.eq_3]
  · rintro _ h
    exact ne_of_digit? base hc (by cases base <;> decide) (List.cons.inj h).1
  · rintro _ h
    exact ne_of_digit? base hc (by cases base <;> decide) (List.cons.inj h).1

theorem readInteger_digits {digits after : Text} (hne : digits ≠ [])
    (hdigits : ∀ c ∈ digits, isDecimalDigit c = true) (hlen : digits.length ≤ maxDigits)
    (hafter : ∀ c ∈ after, isEdgeBlank c = true) :
    readInteger .decimal (digits ++ after) = .ok (ofDigits 10 (digits.filterMap decimalDigit?)) ∧
      readInteger .decimal ('-' :: (digits ++ after)) =
        .ok (-(ofDigits 10 (digits.filterMap decimalDigit?) : Int)) := by
  constructor
  · have hsign := splitSign_of_run .decimal after hne hdigits
    rw [readInteger_of_run .decimal hsign rfl hne hdigits (fun _ => hlen) hafter, Int.one_mul]
    rfl
  · have hsign : splitSign (('-' :: (digits ++ after)).dropWhile isEdgeBlank) =
        (-1, digits ++ after) := rfl
    rw [readInteger_of_run .decimal hsign rfl hne hdigits (fun _ => hlen) hafter, Int.neg_one_mul]
    rfl

theorem ofDigits_concat (radix : Nat) (digits : List Nat) (d : Nat) :
    ofDigits radix (digits ++ [d]) = ofDigits radix digits * radix + d := by
  rw [ofDigits, List.foldl_append]
  rfl

theorem ofDigits_eq (radix : Nat) (digits : List Nat) :
    ofDigits radix digits = Nat.ofDigits radix digits.reverse := by
  induction digits using List.reverseRecOn with
  | nil => rfl
  | append_singleton digits d ih =>
    rw [List.reverse_append, List.reverse_singleton, List.singleton_append, Nat.ofDigits_cons, ← ih,
      ofDigits_concat, Nat.mul_comm, Nat.add_comm]

theorem ofDigits_lt {digits : List Nat} (h : ∀ d ∈ digits, d < 10) :
    ofDigits 10 digits < 10 ^ digits.length := by
  rw [ofDigits_eq, ← List.length_reverse]
  apply Nat.ofDigits_lt_base_pow_length (by decide)
  simpa using h

theorem lt_of_mem_groupedDigits? {run : Text} {digits : List Nat} {d : Nat}
    (h : groupedDigits? .decimal run = some digits) (hd : d ∈ digits) : d < 10 := by
  unfold groupedDigits? at h
  simp only at h
  split at h
  · cases h
  · cases h
    obtain ⟨c, -, hc⟩ := List.mem_filterMap.1 hd
    exact lt_of_decimalDigit? hc

theorem splitSign_eq (t : Text) : (splitSign t).1 = 1 ∨ (splitSign t).1 = -1 := by
  unfold splitSign
  split
  · exact .inr rfl
  · exact .inl rfl
  · exact .inl rfl

theorem isWritable_of_lt {v : Int} {k : Nat} (h : v.natAbs < Nat.pow 10 k) (hk : k ≤ maxDigits) :
    isWritable v = true := by
  have hpow (m : Nat) (hm : k ≤ m) : Nat.pow 10 k ≤ Nat.pow 10 m :=
    Nat.pow_le_pow_right (Nat.succ_pos 9) hm
  exact decide_eq_true (Nat.lt_of_lt_of_le h (hpow maxDigits hk))

theorem isWritable_of_natAbs_lt {v : Int} (h : v.natAbs < 10000) : isWritable v = true :=
  isWritable_of_lt (k := 4) h (by decide)

theorem isWritable_of_natAbs_le {u v : Int} (hv : isWritable v = true) (h : u.natAbs ≤ v.natAbs) :
    isWritable u = true :=
  decide_eq_true (Nat.lt_of_le_of_lt h (of_decide_eq_true hv))

theorem isWritable_of_readInteger {t : Text} {v : Int} (h : readInteger .decimal t = .ok v) :
    isWritable v = true := by
  unfold readInteger at h
  simp only [reduceCtorEq, if_false, true_and] at h
  split at h
  · cases h
  · next digits hgroups =>
    split at h
    · cases h
    · next hlen =>
      split at h
      · have hv := Except.ok.inj h
        have habs : v.natAbs = ofDigits 10 digits := by
          rw [← hv, Int.natAbs_mul]
          rcases splitSign_eq (t.dropWhile isEdgeBlank) with hsign | hsign
          · rw [hsign]
            simp [Base.radix]
          · rw [hsign]
            simp [Base.radix]
        -- The digits are no more than may be read, and no more may be written.
        have hlt : v.natAbs < Nat.pow 10 digits.length := by
          rw [habs]
          exact ofDigits_lt fun d hd => lt_of_mem_groupedDigits? hgroups hd
        exact isWritable_of_lt hlt (Nat.le_of_not_lt hlen)
      · cases h

theorem exists_digits_of_isDecimalLiteral {t : Text} (h : isDecimalLiteral t = true) :
    ∃ digits after, digits ≠ [] ∧ (∀ c ∈ digits, isDecimalDigit c = true) ∧
      (∀ c ∈ after, isEdgeBlank c = true) ∧ (t = digits ++ after ∨ t = '-' :: (digits ++ after)) := by
  have hbody {body : Text}
      (hb : ((if body.getLast? = some '\n' then body.dropLast else body) ≠ [] &&
        (if body.getLast? = some '\n' then body.dropLast else body).all isDecimalDigit) = true) :
      ∃ digits after, digits ≠ [] ∧ (∀ c ∈ digits, isDecimalDigit c = true) ∧
        (∀ c ∈ after, isEdgeBlank c = true) ∧ body = digits ++ after := by
    simp only [Bool.and_eq_true, decide_eq_true_eq, List.all_eq_true] at hb
    by_cases hlast : body.getLast? = some '\n'
    · rw [if_pos hlast] at hb
      refine ⟨body.dropLast, ['\n'], hb.1, hb.2, List.forall_mem_singleton.2 rfl, ?_⟩
      exact (List.dropLast_append_getLast? _ hlast).symm
    · rw [if_neg hlast] at hb
      exact ⟨body, [], hb.1, hb.2, nofun, (List.append_nil body).symm⟩
  simp only [isDecimalLiteral] at h
  split at h
  · obtain ⟨digits, after, hne, hdigits, hafter, rfl⟩ := hbody h
    exact ⟨digits, after, hne, hdigits, hafter, .inr rfl⟩
  · obtain ⟨digits, after, hne, hdigits, hafter, rfl⟩ := hbody h
    exact ⟨digits, after, hne, hdigits, hafter, .inl rfl⟩

theorem isDecimalLiteral_of_digits {digits : Text} (hne : digits ≠ [])
    (hdigits : ∀ c ∈ digits, isDecimalDigit c = true) :
    isDecimalLiteral digits = true ∧ isDecimalLiteral ('-' :: digits) = true := by
  have hlast : digits.getLast? ≠ some '\n' := fun h =>
    ne_of_digit? .decimal (hdigits _ (List.mem_of_getLast? h)) (by decide) rfl
  have hall : digits.all isDecimalDigit = true := List.all_eq_true.2 hdigits
  obtain ⟨c, rest, rfl⟩ := List.exists_cons_of_ne_nil hne
  have hc : c ≠ '-' := ne_of_digit? .decimal (hdigits c List.mem_cons_self) (by decide)
  constructor
  · simp [isDecimalLiteral, hc, hlast, hall]
  · simp only [isDecimalLiteral]
    rw [if_neg hlast, hall]
    rfl

theorem exists_readInteger_of_isDecimalLiteral {t : Text} (h : isDecimalLiteral t = true)
    (hshort : t.countP isDecimalDigit ≤ maxDigits) : ∃ v, readInteger .decimal t = .ok v := by
  obtain ⟨digits, after, hne, hdigits, hafter, ht⟩ := exists_digits_of_isDecimalLiteral h
  have hlen : digits.length ≤ t.countP isDecimalDigit := by
    rw [← List.countP_eq_length.2 hdigits]
    rcases ht with rfl | rfl
    · rw [List.countP_append]
      omega
    · rw [List.countP_cons, List.countP_append]
      omega
  obtain ⟨hplain, hminus⟩ := readInteger_digits hne hdigits (hlen.trans hshort) hafter
  rcases ht with rfl | rfl
  · exact ⟨_, hplain⟩
  · exact ⟨_, hminus⟩

theorem decimal_natCast (n : Nat) : decimal n = Nat.toDigits 10 n := Nat.toList_repr

theorem decimal_negSucc (n : Nat) : decimal (.negSucc n) = '-' :: Nat.toDigits 10 (n + 1) := by
  change ("-" ++ (n + 1).repr).toList = _
  rw [String.toList_append, Nat.toList_repr]
  rfl

theorem isDecimalDigit_of_mem_toDigits {n : Nat} {c : Char} (h : c ∈ Nat.toDigits 10 n) :
    isDecimalDigit c = true :=
  isDecimalDigit_of_isDigit (Nat.isDigit_of_mem_toDigits (by decide) (by decide) h)

/-- A number is read back from its digits in any base whose digits have their own values. -/
theorem ofDigits_toDigits {radix : Nat} {value : Char → Option Nat} (hradix : 1 < radix)
    (hvalue : ∀ d < radix, value (Nat.digitChar d) = some d) (n : Nat) :
    ofDigits radix ((Nat.toDigits radix n).filterMap value) = n := by
  induction n using Nat.strongRecOn with
  | ind n ih =>
    rw [Nat.toDigits_eq_if hradix]
    split
    · next hn =>
      rw [List.filterMap_cons_some (hvalue n hn)]
      simp [ofDigits]
    · next hn =>
      have hhigh := ih (n / radix) (Nat.div_lt_self (by omega) hradix)
      have hlow := hvalue (n % radix) (Nat.mod_lt n (by omega))
      rw [List.filterMap_append, List.filterMap_cons_some hlow, List.filterMap_nil, ofDigits_concat,
        hhigh, Nat.mul_comm, Nat.div_add_mod]

theorem length_toDigits_le {n k : Nat} (hk : 0 < k) (h : n < Nat.pow 10 k) :
    (Nat.toDigits 10 n).length ≤ k :=
  (Nat.length_toDigits_le_iff (by decide) hk).2 h

/-- A number that is short enough to be written is read back from its decimal. -/
theorem readInteger_decimal {v : Int} (h : isWritable v = true) :
    readInteger .decimal (decimal v) = .ok v := by
  have hlen : (Nat.toDigits 10 v.natAbs).length ≤ maxDigits :=
    length_toDigits_le (by decide) (of_decide_eq_true h)
  have hafter : ∀ c ∈ ([] : Text), isEdgeBlank c = true := nofun
  obtain ⟨hplain, hminus⟩ := readInteger_digits Nat.toDigits_ne_nil
    (fun c hc => isDecimalDigit_of_mem_toDigits hc) hlen hafter
  rw [List.append_nil, ofDigits_toDigits (by decide) (by decide)] at hplain hminus
  cases v with
  | ofNat n => exact (congrArg _ (decimal_natCast n)).trans hplain
  | negSucc n => exact (congrArg _ (decimal_negSucc n)).trans hminus

theorem isDecimalLiteral_decimal (v : Int) : isDecimalLiteral (decimal v) = true := by
  have hdigits (n : Nat) : ∀ c ∈ Nat.toDigits 10 n, isDecimalDigit c = true :=
    fun c hc => isDecimalDigit_of_mem_toDigits hc
  obtain ⟨hplain, hminus⟩ := isDecimalLiteral_of_digits Nat.toDigits_ne_nil (hdigits v.natAbs)
  cases v with
  | ofNat n => exact (congrArg _ (decimal_natCast n)).trans hplain
  | negSucc n => exact (congrArg _ (decimal_negSucc n)).trans hminus

theorem isDigit_of_mem_decimal {v : Int} {c : Char} (h : c ∈ decimal v) :
    c = '-' ∨ c.isDigit = true := by
  have hdigit {n : Nat} (hc : c ∈ Nat.toDigits 10 n) : c.isDigit = true :=
    Nat.isDigit_of_mem_toDigits (by decide) (by decide) hc
  cases v with
  | ofNat n => exact .inr (hdigit (decimal_natCast n ▸ h))
  | negSucc n =>
    rw [decimal_negSucc] at h
    exact (List.mem_cons.1 h).imp id hdigit

end WordMachine.Numeral
