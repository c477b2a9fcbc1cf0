import LinuxDfl.Dfl.ParamSearch

/-!
# The range of interrupts

A feature names its interrupts by their indices in the table of the card.  The
range is checked in integers of 32 bits; this says when the table is only read
where it has entries.
-/

namespace LinuxDfl.Dfl

open LinuxDfl.Kernel
open LinuxDfl.Lib.Traced
open LinuxDfl.Lib.Traced.Program

variable {platform : Platform}

/-! ## Reading the table -/

/-- The table does not have a valid interrupt at this index. -/
def InvalidIrq (platform : Platform) (index : Nat) : Prop :=
  platform.irqTable index < 0 ∨ platform.irqTable index > platform.nrIrqsMax

instance (platform : Platform) (index : Nat) :
    Decidable (InvalidIrq platform index) :=
  inferInstanceAs (Decidable (_ ∨ _))

/-- The indices which the loop of `parse_feature_irqs` reads, from `i` on. -/
def irqTableReads (platform : Platform) (ibase : Nat) : Nat → Nat → List Nat
  | 0, _ => []
  | rounds + 1, i =>
      let index := Word.add 32 ibase i
      if InvalidIrq platform index then [index]
      else index :: irqTableReads platform ibase rounds (i + 1)

/-- The indices which `parse_feature_irqs` reads for these interrupts. -/
def parseReads (platform : Platform) (nrIrqs : Nat) (irqs : Nat × Nat) :
    List Nat :=
  if irqs.2 = 0 ∨ Word.add 32 irqs.1 irqs.2 > nrIrqs then []
  else irqTableReads platform irqs.1 irqs.2 0

/-- An index is read unless an entry before it is invalid. -/
theorem mem_irqTableReads {ibase rounds i index : Nat} :
    index ∈ irqTableReads platform ibase rounds i ↔
      ∃ k < rounds, index = Word.add 32 ibase (i + k) ∧
        ∀ j < k, ¬ InvalidIrq platform (Word.add 32 ibase (i + j)) := by
  induction rounds generalizing i with
  | zero =>
      constructor
      · exact fun member => absurd member List.not_mem_nil
      · rintro ⟨k, below, -⟩
        exact absurd below (Nat.not_lt_zero k)
  | succ rounds ih =>
      rw [irqTableReads]
      by_cases invalid : InvalidIrq platform (Word.add 32 ibase i)
      · rw [if_pos invalid, List.mem_singleton]
        constructor
        · rintro rfl
          exact ⟨0, Nat.zero_lt_succ _, rfl,
            fun j before => absurd before (Nat.not_lt_zero j)⟩
        · rintro ⟨k, -, rfl, valid⟩
          cases k with
          | zero => rfl
          | succ k => exact absurd invalid (valid 0 (Nat.zero_lt_succ k))
      · rw [if_neg invalid, List.mem_cons, ih]
        constructor
        · rintro (rfl | ⟨k, below, rfl, valid⟩)
          · exact ⟨0, Nat.zero_lt_succ _, rfl,
              fun j before => absurd before (Nat.not_lt_zero j)⟩
          · refine ⟨k + 1, Nat.succ_lt_succ below, ?_, fun j before => ?_⟩
            · rw [Nat.add_assoc, Nat.add_comm 1 k]
            · cases j with
              | zero => exact invalid
              | succ j =>
                  rw [Nat.add_comm j 1, ← Nat.add_assoc]
                  exact valid j (Nat.lt_of_succ_lt_succ before)
        · rintro ⟨k, below, rfl, valid⟩
          cases k with
          | zero => exact .inl rfl
          | succ k =>
              refine .inr ⟨k, Nat.lt_of_succ_lt_succ below, ?_,
                fun j before => ?_⟩
              · rw [Nat.add_assoc, Nat.add_comm 1 k]
              · rw [Nat.add_assoc, Nat.add_comm 1 j]
                exact valid (j + 1) (Nat.succ_lt_succ before)

/-! ## The interrupts of a feature -/

section Parse

variable {ofst : Nat} {finfo : DflFeatureInfo} {state : Enumeration}
  {irqs : Nat × Nat}

/-- The fields of interrupts are no wider than an unsigned integer. -/
theorem field_lt {field : Field} (narrow : field.width ≤ 32)
    (value : BitVec 64) : field.get value < 2 ^ 32 :=
  Nat.lt_of_lt_of_le (Field.get_lt field value)
    (Nat.pow_le_pow_right (by decide) narrow)

theorem irqCap_narrow {type : DflIdType} {fid : Nat} {cap : IrqCap}
    (isCap : irqCap type fid = some cap) :
    cap.first.width ≤ 32 ∧ cap.count.width ≤ 32 := by
  unfold irqCap at isCap
  cases type with
  | port =>
      dsimp only at isCap
      split_ifs at isCap
      · exact Option.some.inj isCap ▸ ⟨by decide, by decide⟩
      · exact Option.some.inj isCap ▸ ⟨by decide, by decide⟩
  | fme =>
      dsimp only at isCap
      split_ifs at isCap
      exact Option.some.inj isCap ▸ ⟨by decide, by decide⟩
  | privFeat => cases isCap
  | max => cases isCap

/-- Registers and parameters give interrupts as integers of 32 bits. -/
theorem featureIrqs_lt {base : Int} {type : DflIdType}
    (isIrqs : (featureIrqs platform base type finfo state).result =
      .ok irqs) :
    irqs.1 < 2 ^ 32 ∧ irqs.2 < 2 ^ 32 := by
  unfold featureIrqs at isIrqs
  split_ifs at isIrqs
  · cases isCap : irqCap type finfo.fid with
    | none =>
        rw [isCap] at isIrqs
        obtain rfl := Except.ok.inj isIrqs
        exact ⟨by decide, by decide⟩
    | some cap =>
        rw [isCap] at isIrqs
        obtain rfl := Except.ok.inj isIrqs
        obtain ⟨first, count⟩ := irqCap_narrow isCap
        exact ⟨field_lt first _, field_lt count _⟩
  · cases found : findParam finfo.params dfhv1ParamIdMsiX
        finfo.params.length 0 with
    | none =>
        rw [found] at isIrqs
        obtain rfl := Except.ok.inj isIrqs
        exact ⟨by decide, by decide⟩
    | some index =>
        rw [found] at isIrqs
        obtain rfl := Except.ok.inj isIrqs
        exact ⟨field_lt (by decide) _, field_lt (by decide) _⟩
  · obtain rfl := Except.ok.inj isIrqs
    exact ⟨by decide, by decide⟩

/-- A range which is accepted has been checked, and all its entries read. -/
theorem parseFeatureIrqs_ok
    (isIrqs : (featureIrqs platform (state.binfo.ioaddr + ofst)
      state.binfo.type finfo state).result = .ok irqs)
    {filled : DflFeatureInfo}
    (returns : (parseFeatureIrqs platform ofst finfo state).result =
      .ok filled) :
    filled.nrIrqs = 0 ∨
      Word.add 32 irqs.1 irqs.2 ≤ state.binfo.nrIrqs ∧ irqs.2 ≠ 0 ∧
        (∀ i < irqs.2, ¬ InvalidIrq platform (Word.add 32 irqs.1 i)) ∧
          filled.irqBase = irqs.1 ∧ filled.nrIrqs = irqs.2 := by
  have reads :
      (Program.read state : Run Event Failure Enumeration _).result =
        .ok state := rfl
  rw [parseFeatureIrqs, bind_of_ok reads] at returns
  change ((featureIrqs platform (state.binfo.ioaddr + ofst) state.binfo.type
    finfo >>= _) state).result = _ at returns
  rw [bind_of_ok isIrqs] at returns
  dsimp only at returns
  split_ifs at returns with none' exceeds invalid
  · obtain rfl := Except.ok.inj returns
    exact .inl rfl
  · cases returns
  · cases returns
  · obtain rfl := Except.ok.inj returns
    refine .inr ⟨Nat.le_of_not_lt exceeds, none', fun i below bad => ?_,
      rfl, rfl⟩
    refine invalid (List.any_eq_true.mpr ⟨i, List.mem_range.mpr below, ?_⟩)
    exact Bool.or_eq_true_iff.mpr
      (bad.imp decide_eq_true decide_eq_true)

end Parse

/-! ## The range of a feature -/

/-- What has to hold of the interrupts of a feature. -/
structure IrqsInRange (platform : Platform) (ofst : Nat)
    (finfo : DflFeatureInfo) (state : Enumeration) (irqs : Nat × Nat) :
    Prop where
  /-- `parse_feature_irqs` reads entries of the table only. -/
  parsed : ∀ index ∈ parseReads platform state.binfo.nrIrqs irqs,
    index < state.binfo.nrIrqs
  /-- If it accepts the feature, the whole range is in the table. -/
  accepted : ∀ filled,
    (parseFeatureIrqs platform ofst finfo state).result = .ok filled →
      ∀ i < filled.nrIrqs, filled.irqBase + i < state.binfo.nrIrqs
  /-- `binfo_create_feature_dev_data` reads entries of the table only. -/
  committed : ∀ filled,
    (parseFeatureIrqs platform ofst finfo state).result = .ok filled →
      ∀ i < filled.nrIrqs,
        Word.add 32 filled.irqBase i < state.binfo.nrIrqs

/--
The range does not wrap around; or what it wraps to is still too large, or it
is refused for an entry in the table before its end.
-/
def RangeSettled (platform : Platform) (nrIrqs : Nat) (irqs : Nat × Nat) :
    Prop :=
  irqs.2 = 0 ∨ irqs.1 + irqs.2 < 2 ^ 32 ∨ nrIrqs < irqs.1 + irqs.2 - 2 ^ 32 ∨
    ∃ index, irqs.1 ≤ index ∧ index < nrIrqs ∧ InvalidIrq platform index

section Range

variable {nrIrqs : Nat} {irqs : Nat × Nat}

/-- A range which does not wrap around is read inside the table. -/
theorem parseReads_lt (fits : irqs.1 + irqs.2 < 2 ^ 32) {index : Nat}
    (member : index ∈ parseReads platform nrIrqs irqs) : index < nrIrqs := by
  unfold parseReads at member
  split_ifs at member with refused
  · exact absurd member List.not_mem_nil
  · obtain ⟨-, checked⟩ := not_or.mp refused
    rw [Word.add_of_lt fits] at checked
    obtain ⟨k, below, rfl, -⟩ := mem_irqTableReads.mp member
    rw [Word.add_of_lt (by omega)]
    omega

/-- An invalid entry of the table ends the reading before its end. -/
theorem parseReads_lt_of_invalid (bound : nrIrqs < 2 ^ 32) {bad : Nat}
    (above : irqs.1 ≤ bad) (below : bad < nrIrqs)
    (invalid : InvalidIrq platform bad) {index : Nat}
    (member : index ∈ parseReads platform nrIrqs irqs) : index < nrIrqs := by
  unfold parseReads at member
  split_ifs at member
  · exact absurd member List.not_mem_nil
  · obtain ⟨k, -, rfl, valid⟩ := mem_irqTableReads.mp member
    have before : irqs.1 + k ≤ bad := by
      by_contra beyond
      refine valid (bad - irqs.1) (by omega) ?_
      rw [Nat.zero_add, Word.add_of_lt (by omega),
        Nat.add_sub_cancel' above]
      exact invalid
    rw [Nat.zero_add, Word.add_of_lt (by omega)]
    omega

/-- A range which wraps around is read up to the end of the table. -/
theorem exists_parseReads (wraps : 2 ^ 32 ≤ irqs.1 + irqs.2)
    (checked : Word.add 32 irqs.1 irqs.2 ≤ nrIrqs) (bound : nrIrqs < 2 ^ 32)
    (first : irqs.1 < 2 ^ 32)
    (valid : ∀ index, irqs.1 ≤ index → index < nrIrqs →
      ¬ InvalidIrq platform index) :
    max irqs.1 nrIrqs ∈ parseReads platform nrIrqs irqs := by
  unfold parseReads
  have parses : ¬ (irqs.2 = 0 ∨ Word.add 32 irqs.1 irqs.2 > nrIrqs) :=
    not_or.mpr ⟨by omega, Nat.not_lt.mpr checked⟩
  rw [if_neg parses, mem_irqTableReads]
  refine ⟨max irqs.1 nrIrqs - irqs.1, by omega, ?_, fun j before => ?_⟩
  · rw [Nat.zero_add, Word.add_of_lt (by omega)]
    omega
  · rw [Nat.zero_add, Word.add_of_lt (by omega)]
    exact valid _ (by omega) (by omega)

/-- A settled range is only accepted if it does not wrap around. -/
theorem RangeSettled.fits (settled : RangeSettled platform nrIrqs irqs)
    (bound : nrIrqs < 2 ^ 32)
    (checked : Word.add 32 irqs.1 irqs.2 ≤ nrIrqs) (nonempty : irqs.2 ≠ 0)
    (valid : ∀ i < irqs.2, ¬ InvalidIrq platform (Word.add 32 irqs.1 i)) :
    irqs.1 + irqs.2 < 2 ^ 32 := by
  rcases settled with empty | fits | beyond | ⟨bad, above, below, invalid⟩
  · exact absurd empty nonempty
  · exact fits
  · unfold Word.add at checked
    rw [if_neg (by omega)] at checked
    omega
  · by_contra wraps
    refine valid (bad - irqs.1) (by omega) ?_
    rw [Word.add_of_lt (by omega), Nat.add_sub_cancel' above]
    exact invalid

theorem RangeSettled.parsed (settled : RangeSettled platform nrIrqs irqs)
    (bound : nrIrqs < 2 ^ 32) {index : Nat}
    (member : index ∈ parseReads platform nrIrqs irqs) : index < nrIrqs := by
  rcases settled with empty | fits | beyond | ⟨bad, above, below, invalid⟩
  · unfold parseReads at member
    rw [if_pos (.inl empty)] at member
    exact absurd member List.not_mem_nil
  · exact parseReads_lt fits member
  · have exceeds : Word.add 32 irqs.1 irqs.2 > nrIrqs := by
      unfold Word.add
      rw [if_neg (by omega)]
      exact beyond
    unfold parseReads at member
    rw [if_pos (.inr exceeds)] at member
    exact absurd member List.not_mem_nil
  · exact parseReads_lt_of_invalid bound above below invalid member

end Range

/--
The interrupts of a feature are in the table exactly if their range does not
wrap around, or is refused all the same.
-/
theorem irqs_in_range_iff (platform : Platform) (ofst : Nat)
    (finfo : DflFeatureInfo) (state : Enumeration) {irqs : Nat × Nat}
    (bound : state.binfo.nrIrqs < 2 ^ 32)
    (isIrqs : (featureIrqs platform (state.binfo.ioaddr + ofst)
      state.binfo.type finfo state).result = .ok irqs) :
    IrqsInRange platform ofst finfo state irqs ↔
      RangeSettled platform state.binfo.nrIrqs irqs := by
  obtain ⟨first, -⟩ := featureIrqs_lt isIrqs
  constructor
  · intro inRange
    by_contra unsettled
    obtain ⟨some', wraps, checked, valid⟩ :
        irqs.2 ≠ 0 ∧ ¬ irqs.1 + irqs.2 < 2 ^ 32 ∧
          ¬ state.binfo.nrIrqs < irqs.1 + irqs.2 - 2 ^ 32 ∧
            ¬ ∃ index, irqs.1 ≤ index ∧ index < state.binfo.nrIrqs ∧
              InvalidIrq platform index := by
      simpa only [RangeSettled, not_or] using unsettled
    have sum : Word.add 32 irqs.1 irqs.2 ≤ state.binfo.nrIrqs := by
      unfold Word.add
      rw [if_neg wraps]
      omega
    have reads :
        max irqs.1 state.binfo.nrIrqs ∈
          parseReads platform state.binfo.nrIrqs irqs :=
      exists_parseReads (Nat.le_of_not_lt wraps) sum bound first
        fun index above below invalid => valid ⟨index, above, below, invalid⟩
    have below := inRange.parsed _ reads
    omega
  · intro settled
    have accepts {filled : DflFeatureInfo}
        (returns : (parseFeatureIrqs platform ofst finfo state).result =
          .ok filled) {i : Nat} (below : i < filled.nrIrqs) :
        filled.irqBase + i < state.binfo.nrIrqs := by
      rcases parseFeatureIrqs_ok isIrqs returns with
        empty | ⟨checked, nonempty, valid, isBase, isCount⟩
      · omega
      · have fits := settled.fits bound checked nonempty valid
        rw [Word.add_of_lt fits] at checked
        omega
    refine
      { parsed := fun index => settled.parsed bound
        accepted := fun filled returns i => accepts returns
        committed := fun filled returns i below => ?_ }
    have inTable := accepts returns below
    rwa [Word.add_of_lt (Nat.lt_trans inTable bound)]

/-- A table with eight interrupts, all of them valid. -/
def eightIrqs : Enumeration :=
  (initialEnumeration 8).withBinfo fun binfo => { binfo with type := .privFeat }

/-- Interrupts of the table are accepted. -/
theorem three_irqs_in_range :
    IrqsInRange (featureWithBlock 0x38 0) 0
        (featureOfWords [0x1100000001, 0x300000002]) eightIrqs (2, 3) ↔
      RangeSettled (featureWithBlock 0x38 0) 8 (2, 3) :=
  irqs_in_range_iff _ _ _ eightIrqs (by decide) rfl

/-- Two interrupts from the largest index on are accepted, outside. -/
theorem wrapped_range_accepted :
    let run := parseFeatureIrqs (featureWithBlock 0x38 0) 0
      (featureOfWords [0x1100000001, 0x2ffffffff]) eightIrqs
    (featureIrqs (featureWithBlock 0x38 0) 0 .privFeat
        (featureOfWords [0x1100000001, 0x2ffffffff]) eightIrqs).result =
        .ok (0xffffffff, 2) ∧
      (∃ filled, run.result = .ok filled) ∧
        ¬ IrqsInRange (featureWithBlock 0x38 0) 0
          (featureOfWords [0x1100000001, 0x2ffffffff]) eightIrqs
          (0xffffffff, 2) := by
  refine ⟨rfl, ⟨_, rfl⟩, fun inRange => ?_⟩
  have below := inRange.parsed 0xffffffff (by decide)
  exact absurd below (by decide)

end LinuxDfl.Dfl
