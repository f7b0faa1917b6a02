import R5900.Proofs.Execute.Instruction

/-!
# Division

Both divisions are total on words. Where the quotient exists and fits, it is rounded toward zero and
the remainder has the sign of the dividend; the other quotients, by zero and of the least word by
minus one, are set apart.

* `SignedQuotient` and `UnsignedQuotient`: what quotient and remainder are as numbers.
* `quotient_exact`: the quotient and the remainder of any two words. In all cases they give back the
  dividend modulo `2 ^ 32`.
* `Instruction.interpret_divide`: a division writes them to its pipeline and does nothing else.
-/

namespace R5900

open Exec

/-! ## Quotients of numbers -/

/-- Quotient and remainder of two signed words, as numbers. -/
structure SignedQuotient (n d q r : Int) : Prop where
  exact : d ≠ 0 → ¬(n = -2 ^ 31 ∧ d = -1) →
    n = q * d + r ∧ r.natAbs < d.natAbs ∧ (r = 0 ∨ r.sign = n.sign)
  zero : d = 0 → r = n ∧ q = if n < 0 then 1 else -1
  least : n = -2 ^ 31 → d = -1 → q = -2 ^ 31 ∧ r = 0

/-- Quotient and remainder of two unsigned words, as numbers. -/
structure UnsignedQuotient (n d q r : Nat) : Prop where
  exact : d ≠ 0 → n = q * d + r ∧ r < d
  zero : d = 0 → q = 2 ^ 32 - 1 ∧ r = n

/-- The quotient toward zero, with its remainder. -/
theorem tdiv_exact (n : Int) {d : Int} (hd : d ≠ 0) : n = n.tdiv d * d + n.tmod d ∧
    (n.tmod d).natAbs < d.natAbs ∧ (n.tmod d = 0 ∨ (n.tmod d).sign = n.sign) := by
  refine ⟨(Int.tdiv_mul_add_tmod n d).symm, ?_, ?_⟩
  · rw [Int.natAbs_tmod]
    exact Nat.mod_lt _ (Int.natAbs_pos.2 hd)
  · have hsign := Int.sign_tmod n d
    split at hsign
    · exact .inl (Int.sign_eq_zero_iff_zero.1 hsign)
    · exact .inr hsign

/-! ## Quotients of words -/

/-- Quotient and remainder of two words, signed or not. -/
def IsQuotient (signed : Bool) (n d q r : UInt32) : Prop :=
  match signed with
  | true => SignedQuotient n.toInt32.toInt d.toInt32.toInt q.toInt32.toInt r.toInt32.toInt
  | false => UnsignedQuotient n.toNat d.toNat q.toNat r.toNat

theorem ofInt_toInt32 (w : UInt32) : UInt32.ofInt w.toInt32.toInt = w := by
  apply UInt32.toNat_inj.1
  have hw : w.toInt32.toInt = if 2 * w.toNat < 2 ^ 32 then (w.toNat : Int) else w.toNat - 2 ^ 32 :=
    BitVec.toInt_eq_toNat_cond w.toBitVec
  have hlt := w.toNat_lt
  show (w.toInt32.toInt % 2 ^ 32).toNat % 2 ^ 32 = w.toNat
  split at hw <;> omega

section Congruence

variable {n d q r : UInt32}

theorem SignedQuotient.congr
    (h : SignedQuotient n.toInt32.toInt d.toInt32.toInt q.toInt32.toInt r.toInt32.toInt) :
    n = q * d + r := by
  rw [← ofInt_toInt32 n, ← ofInt_toInt32 d, ← ofInt_toInt32 q, ← ofInt_toInt32 r,
    ← UInt32.ofInt_mul, ← UInt32.ofInt_add]
  by_cases hzero : d.toInt32.toInt = 0
  · rw [(h.zero hzero).1, hzero, Int.mul_zero, Int.zero_add]
  by_cases hleast : n.toInt32.toInt = -2 ^ 31 ∧ d.toInt32.toInt = -1
  · obtain ⟨hq, hr⟩ := h.least hleast.1 hleast.2
    rw [hq, hr, hleast.1, hleast.2]
    rfl
  · rw [← (h.exact hzero hleast).1]

theorem UnsignedQuotient.congr (h : UnsignedQuotient n.toNat d.toNat q.toNat r.toNat) :
    n = q * d + r := by
  apply UInt32.toNat_inj.1
  rw [UInt32.toNat_add, UInt32.toNat_mul, Nat.mod_add_mod]
  by_cases hzero : d.toNat = 0
  · rw [(h.zero hzero).2, hzero, Nat.mul_zero, Nat.zero_add, Nat.mod_eq_of_lt n.toNat_lt]
  · rw [← (h.exact hzero).1, Nat.mod_eq_of_lt n.toNat_lt]

end Congruence

/-- A checked quotient toward zero that does not fault is the quotient, with its remainder. -/
theorem Checked.eq_of_divModSigned32 {n d q r : Int32} (h : divModSigned32 n d = .ok (q, r)) :
    q = n / d ∧ r = n % d := by
  unfold divModSigned32 at h
  split at h <;> cases h
  exact ⟨rfl, rfl⟩

theorem signedQuotient_of_eq_ok {n d q r : UInt32} (h : quotientSigned n d = .ok (q, r)) :
    SignedQuotient n.toInt32.toInt d.toInt32.toInt q.toInt32.toInt r.toInt32.toInt := by
  unfold quotientSigned at h
  -- the cases are those of the definition: by zero, the quotient that does not fit, all others
  by_cases hzero : d.toInt32 = 0
  · have hd : d.toInt32.toInt = 0 := congrArg Int32.toInt hzero
    have hneg : n.toInt32 < 0 ↔ n.toInt32.toInt < 0 := Int32.lt_iff_toInt_lt
    simp only [if_pos hzero, hneg] at h
    cases h
    refine ⟨absurd hd, fun _ => ⟨rfl, ?_⟩, fun _ hd' => ?_⟩
    · split <;> rfl
    · rw [hd] at hd'
      cases hd'
  have hd : d.toInt32.toInt ≠ 0 := fun heq => hzero (Int32.toInt_inj.1 heq)
  by_cases hleast : n.toInt32 = Int32.minValue ∧ d.toInt32 = -1
  · simp only [if_neg hzero, if_pos hleast] at h
    cases h
    refine ⟨fun _ hfits => absurd ?_ hfits, fun heq => absurd heq hd, fun _ _ => ⟨rfl, rfl⟩⟩
    exact ⟨congrArg Int32.toInt hleast.1, congrArg Int32.toInt hleast.2⟩
  · simp only [if_neg hzero, if_neg hleast] at h
    obtain ⟨⟨q', r'⟩, hchecked, hpure⟩ := exists_of_bind_eq_ok h
    cases hpure
    obtain ⟨rfl, rfl⟩ := Checked.eq_of_divModSigned32 hchecked
    have hq : (n.toInt32 / d.toInt32).toInt = n.toInt32.toInt.tdiv d.toInt32.toInt := by
      by_cases hn : n.toInt32 = Int32.minValue
      · exact Int32.toInt_div_of_ne_right _ _ fun hminus => hleast ⟨hn, hminus⟩
      · exact Int32.toInt_div_of_ne_left _ _ hn
    simp only [Int32.toInt32_toUInt32, hq, Int32.toInt_mod]
    refine ⟨fun _ _ => tdiv_exact _ hd, fun heq => absurd heq hd, fun hn hminus => ?_⟩
    exact absurd ⟨Int32.toInt_inj.1 hn, Int32.toInt_inj.1 hminus⟩ hleast

theorem unsignedQuotient_of_eq_ok {n d q r : UInt32} (h : quotientUnsigned n d = .ok (q, r)) :
    UnsignedQuotient n.toNat d.toNat q.toNat r.toNat := by
  unfold quotientUnsigned at h
  by_cases hzero : d = 0
  · rw [if_pos hzero] at h
    cases h
    exact ⟨absurd (congrArg UInt32.toNat hzero), fun _ => ⟨rfl, rfl⟩⟩
  · have hd : d.toNat ≠ 0 := fun heq => hzero (UInt32.toNat_inj.1 heq)
    rw [if_neg hzero, Checked.divMod32, if_neg hzero] at h
    cases h
    refine ⟨fun _ => ?_, fun heq => absurd heq hd⟩
    rw [UInt32.toNat_div, UInt32.toNat_mod, Nat.div_add_mod']
    exact ⟨rfl, Nat.mod_lt _ (Nat.pos_of_ne_zero hd)⟩

/-- **Every two words have a quotient and a remainder**, and these give back the dividend modulo
`2 ^ 32`. -/
theorem quotient_exact (signed : Bool) (n d : UInt32) :
    ∃ q r, quotient signed n d = .ok (q, r) ∧ IsQuotient signed n d q r ∧ n = q * d + r := by
  obtain ⟨⟨q, r⟩, hrun⟩ := quotient_eq_ok signed n d
  refine ⟨q, r, hrun, ?_⟩
  cases signed with
  | true =>
    have h := signedQuotient_of_eq_ok hrun
    exact ⟨h, h.congr⟩
  | false =>
    have h := unsignedQuotient_of_eq_ok hrun
    exact ⟨h, h.congr⟩

/-! ## Divisions -/

/-- **Division is exact and total.** A division of the low words of two registers, signed or not, is
done on every machine. It leaves the remainder and the quotient, sign-extended, in the doublewords
of its pipeline, moves to the next instruction and changes nothing else. Quotient and remainder are
those of the numbers that the words denote, rounded toward zero. Divided by zero, a dividend is its
own remainder, and the quotient is the greatest word, or one for a negative signed dividend; the one
signed quotient that does not fit is the least word, with no remainder. In all cases the dividend is
the quotient times the divisor plus the remainder, modulo `2 ^ 32`. -/
theorem Instruction.interpret_divide (signed : Bool) (pipe : Pipeline) (rs rt : Gpr) (m : Machine) :
    ∃ q r : UInt32,
      (divide signed pipe rs rt).interpret.run m = .done () { m with core := { m.core with
        pc := m.core.pc + 4
        hi := pipe.replace m.core.hi (signExtend32 r)
        lo := pipe.replace m.core.lo (signExtend32 q) } } ∧
      IsQuotient signed (m.core.word rs) (m.core.word rt) q r ∧
      m.core.word rs = q * m.core.word rt + r := by
  obtain ⟨q, r, hquotient, h⟩ := quotient_exact signed (m.core.word rs) (m.core.word rt)
  have hrun : (execute (.divide signed pipe rs rt) m.core.pc).run m =
      .done (m.core.pc + 4) { m with core := m.core.setResultWords pipe r q } := by
    simp only [execute, run_ofCore_bind, run_ofChecked_bind hquotient, run_onCore_bind, run_pure]
  exact ⟨q, r, interpret_of_execute hrun, h⟩

end R5900
