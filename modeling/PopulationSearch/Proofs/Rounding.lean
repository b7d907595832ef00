import PopulationSearch.Proofs.Magnitudes

/-! Rounding carries no sum, difference, product or whole number past a double. -/

namespace PopulationSearch.Binary64

open Float.Model (UnpackedFloat Format)
open Float.Model.UnpackedFloat (Sign unpack pack roundWithAccuracy decreaseExponent)

section Values

def value (a : Float) : ℚ :=
  match a.toModel.unpack with
  | .finite s m e _ => (s.apply m : ℚ) * 2 ^ e
  | _ => 0

theorem value_of_unpack_eq {a : Float} {s : Sign} {m : ℕ} {e : ℤ}
    (h : a.toModel.unpack = signed s m e) : value a = (s.apply m : ℚ) * 2 ^ e := by
  rw [value, h, signed]
  split_ifs with hm
  · subst hm
    cases s <;> simp [Sign.apply]
  · rfl

theorem exists_signed {a : Float} (ha : a.isFinite = true) :
    ∃ s m e, Canonical m e ∧ e ≤ 971 ∧ a.toModel.unpack = signed s m e ∧
      value a = (s.apply m : ℚ) * 2 ^ e := by
  obtain ⟨s, m, e, hm, he, hunpack⟩ := exists_signed_of_isFinite ha
  exact ⟨s, m, e, hm, he, hunpack, value_of_unpack_eq hunpack⟩

def ofSigned (s : Sign) (m : ℕ) (e : ℤ) : Float := .ofModel (.pack (signed s m e))

theorem unpack_ofSigned {m : ℕ} {e : ℤ} (h : Canonical m e) (he : e ≤ 971) (s : Sign) :
    (ofSigned s m e).toModel.unpack = signed s m e := unpack_pack_signed h he s

theorem ofModel_pack_unpack (a : Float) : Float.ofModel (.pack a.toModel.unpack) = a := by
  have hbits : pack .binary64 a.toModel.unpack = a.toModel.toBits.toBitVec :=
    UnpackedFloat.pack_unpack_of_valid a.toModel.valid
  apply Float.toBits_inj.mp
  exact UInt64.toBitVec_inj.mp hbits

theorem beq_zero_iff {a : Float} : (a == 0) = true ↔ a = 0 ∨ a = -0 := by
  constructor
  · intro h
    have hunpack : a.toModel.unpack.beq (.zero .positive) = true := h
    rw [← ofModel_pack_unpack a]
    cases ha : a.toModel.unpack with
    | zero s => cases s <;> decide +kernel
    | notANumber => simp [UnpackedFloat.beq, UnpackedFloat.compare, ha] at hunpack
    | infinity s | finite s =>
      cases s <;> simp [UnpackedFloat.beq, UnpackedFloat.compare, ha] at hunpack
  · rintro (rfl | rfl) <;> decide +kernel

theorem then_isLE_iff {e f : ℤ} {m n : ℕ} :
    ((compare e f).then (compare m n)).isLE = true ↔ e < f ∨ e = f ∧ m ≤ n := by
  have hgt : ((compare e f).then (compare m n)) = .gt ↔ f < e ∨ e = f ∧ n < m := then_eq_gt_iff
  rw [Ordering.isLE_iff_ne_gt, hgt]
  omega

theorem then_isGE_iff {e f : ℤ} {m n : ℕ} :
    ((compare e f).then (compare m n)).isGE = true ↔ f < e ∨ e = f ∧ n ≤ m := by
  have hlt : ((compare e f).then (compare m n)) = .lt ↔ e < f ∨ e = f ∧ m < n := then_eq_lt_iff
  rw [Ordering.isGE_iff_ne_lt, hlt]
  omega

theorem le_iff_rank {u v : UnpackedFloat} :
    u.le v = true ↔ u.isNaN = false ∧ v.isNaN = false ∧ rank u ≤ rank v := by
  have hminus : compare Sign.negative .negative = .eq := rfl
  have hup : compare Sign.negative .positive = .lt := rfl
  have hdown : compare Sign.positive .negative = .gt := rfl
  have hplus : compare Sign.positive .positive = .eq := rfl
  rw [UnpackedFloat.le]
  rcases u with (_ | _) | _ | s | ⟨(_ | _), m, e, _⟩ <;>
    rcases v with (_ | _) | _ | t | ⟨(_ | _), n, f, _⟩ <;>
      simp [UnpackedFloat.compare, rank, UnpackedFloat.isNaN, Prod.Lex.le_iff, then_isLE_iff,
        then_isGE_iff, hminus, hup, hdown, hplus]

theorem rank_signed_le_iff {s t : Sign} {m n : ℕ} {e f : ℤ} (hm : Canonical m e)
    (hn : Canonical n f) :
    rank (signed s m e) ≤ rank (signed t n f) ↔
      (s.apply m : ℚ) * 2 ^ e ≤ (t.apply n : ℚ) * 2 ^ f := by
  have hmn := hm.toLex_le_iff hn
  have hnm := hn.toLex_le_iff hm
  rw [Prod.Lex.toLex_le_toLex] at hmn hnm
  have he := two_zpow_pos e
  have hf := two_zpow_pos f
  rcases Nat.eq_zero_or_pos m with rfl | hmpos
  · rcases Nat.eq_zero_or_pos n with rfl | hnpos
    · cases s <;> cases t <;> simp [signed, rank, Sign.apply]
    · have hvalue : (0 : ℚ) < n * 2 ^ f := by positivity
      cases t
      · cases s <;> simp [signed, rank, Sign.apply, hnpos.ne', Prod.Lex.le_iff, hvalue.not_ge]
      · cases s <;> simp [signed, rank, Sign.apply, hnpos.ne', Prod.Lex.le_iff, hvalue.le]
  · have hleft : (0 : ℚ) < m * 2 ^ e := by positivity
    rcases Nat.eq_zero_or_pos n with rfl | hnpos
    · cases s
      · cases t <;> simp [signed, rank, Sign.apply, hmpos.ne', Prod.Lex.le_iff, hleft.le]
      · cases t <;> simp [signed, rank, Sign.apply, hmpos.ne', Prod.Lex.le_iff, hleft.not_ge]
    · have hright : (0 : ℚ) < n * 2 ^ f := by positivity
      have hopposite : -((m : ℚ) * 2 ^ e) ≤ n * 2 ^ f := by linarith
      have hapart : ¬ (m : ℚ) * 2 ^ e ≤ -(n * 2 ^ f) := by
        rw [not_le]
        linarith
      cases s
      · cases t
        · simp [signed, rank, Sign.apply, hmpos.ne', hnpos.ne', Prod.Lex.le_iff, ← hnm,
            @eq_comm _ e f]
        · simp [signed, rank, Sign.apply, hmpos.ne', hnpos.ne', Prod.Lex.le_iff, hopposite]
      · cases t
        · simp [signed, rank, Sign.apply, hmpos.ne', hnpos.ne', Prod.Lex.le_iff, hapart]
        · simp [signed, rank, Sign.apply, hmpos.ne', hnpos.ne', Prod.Lex.le_iff, ← hmn]

theorem isNaN_signed (s : Sign) (m : ℕ) (e : ℤ) : (signed s m e).isNaN = false := by
  unfold signed
  split <;> rfl

theorem le_iff_value {a b : Float} (ha : a.isFinite = true) (hb : b.isFinite = true) :
    a ≤ b ↔ value a ≤ value b := by
  obtain ⟨s, m, e, hm, -, hunpack, hvalue⟩ := exists_signed ha
  obtain ⟨t, n, f, hn, -, hunpack', hvalue'⟩ := exists_signed hb
  rw [float_le_iff, le_iff_rank, hunpack, hunpack', hvalue, hvalue', rank_signed_le_iff hm hn]
  simp [isNaN_signed]

theorem isFinite_neg (a : Float) : (-a).isFinite = a.isFinite := by
  change (-a).toModel.unpack.isFinite = a.toModel.unpack.isFinite
  rw [unpack_neg]
  cases a.toModel.unpack <;> rfl

theorem value_neg (a : Float) : value (-a) = -value a := by
  rw [value, value, unpack_neg]
  rcases a.toModel.unpack with _ | _ | _ | ⟨_ | _, m, e, hm⟩
  · exact neg_zero.symm
  · exact neg_zero.symm
  · exact neg_zero.symm
  · simp [UnpackedFloat.neg, Sign.apply, show -Sign.negative = .positive from rfl]
  · simp [UnpackedFloat.neg, Sign.apply, show -Sign.positive = .negative from rfl]

theorem float_neg_neg (a : Float) : - -a = a := by
  have hsign (s : Sign) : - -s = s := by cases s <;> rfl
  have hneg (u : UnpackedFloat) : u.neg.neg = u := by
    cases u <;> simp [UnpackedFloat.neg, hsign]
  rw [← ofModel_pack_unpack (- -a), unpack_neg, unpack_neg, hneg, ofModel_pack_unpack]

theorem float_neg_le_neg_iff {a b : Float} : -a ≤ -b ↔ b ≤ a := by
  have hrank : rank a.toModel.unpack.neg ≤ rank b.toModel.unpack.neg ↔
      rank b.toModel.unpack ≤ rank a.toModel.unpack := by
    rw [← not_lt, ← not_lt, rank_neg_lt_iff]
  rw [float_le_iff, float_le_iff, unpack_neg, unpack_neg, le_iff_rank, le_iff_rank, isNaN_neg,
    isNaN_neg, hrank, and_left_comm]

end Values

/-- No finite double is on the other side of `a` than of `x`. -/
structure Rounds (x : ℚ) (a : Float) : Prop where
  le_of_le : ∀ b : Float, b.isFinite = true → value b ≤ x → b ≤ a
  ge_of_ge : ∀ b : Float, b.isFinite = true → x ≤ value b → a ≤ b

section Rounding

variable {x : ℚ} {a b : Float}

theorem rounds_value (ha : a.isFinite = true) : Rounds (value a) a :=
  ⟨fun _ hb h => (le_iff_value hb ha).mpr h, fun _ hb h => (le_iff_value ha hb).mpr h⟩

theorem Rounds.neg (h : Rounds x a) : Rounds (-x) (-a) := by
  constructor
  case le_of_le =>
    intro b hb hle
    have hle' : a ≤ -b := h.ge_of_ge (-b) (by rwa [isFinite_neg]) (by rw [value_neg]; linarith)
    rwa [← float_neg_le_neg_iff, float_neg_neg] at hle'
  case ge_of_ge =>
    intro b hb hle
    have hle' : -b ≤ a := h.le_of_le (-b) (by rwa [isFinite_neg]) (by rw [value_neg]; linarith)
    rwa [← float_neg_le_neg_iff, float_neg_neg] at hle'

theorem le_infinity {u : UnpackedFloat} (hu : u.isNaN = false) :
    u.le (.infinity .positive) = true := by
  rcases u with (_ | _) | _ | _ | ⟨_ | _, _⟩ <;> first | rfl | cases hu

theorem isFinite_ofSigned {m : ℕ} {e : ℤ} (hm : Canonical m e) (he : e ≤ 971) (s : Sign) :
    (ofSigned s m e).isFinite = true := by
  change (ofSigned s m e).toModel.unpack.isFinite = true
  rw [unpack_ofSigned hm he, signed]
  split <;> rfl

theorem value_ofSigned {m : ℕ} {e : ℤ} (hm : Canonical m e) (he : e ≤ 971) (s : Sign) :
    value (ofSigned s m e) = (s.apply m : ℚ) * 2 ^ e :=
  value_of_unpack_eq (unpack_ofSigned hm he s)

theorem rounds_ofSigned_positive {m : ℕ} {e : ℤ} (hm : Canonical m e) (hx : Brackets x m e)
    (h0 : 0 ≤ x) : Rounds x (ofSigned .positive m e) := by
  constructor
  case le_of_le =>
    intro b hb hle
    obtain ⟨s, n, f, hn, hf, hunpack, hvalue⟩ := exists_signed hb
    by_cases he : e ≤ 971
    · rw [le_iff_value hb (isFinite_ofSigned hm he _), value_ofSigned hm he]
      rw [hvalue] at hle ⊢
      cases s with
      | negative =>
        have hleft : (0 : ℚ) ≤ n * 2 ^ f := by positivity
        have hright : (0 : ℚ) ≤ m * 2 ^ e := by positivity
        simp only [Sign.apply, Int.cast_neg, Int.cast_natCast]
        linarith
      | positive => exact hx.le_of_le n f hn hle
    · have hmpos : m ≠ 0 := by
        rintro rfl
        have hleast := hm.full.resolve_left (by norm_num)
        omega
      have hover : (ofSigned .positive m e).toModel.unpack = .infinity .positive :=
        unpack_pack_signed_of_lt hmpos (not_le.mp he) _
      rw [float_le_iff, hover, hunpack]
      exact le_infinity (isNaN_signed s n f)
  case ge_of_ge =>
    intro b hb hle
    obtain ⟨s, n, f, hn, hf, -, hvalue⟩ := exists_signed hb
    have hmagnitude : value b = n * 2 ^ f := by
      rw [hvalue] at hle ⊢
      cases s with
      | negative =>
        have hn0 : (0 : ℚ) ≤ n * 2 ^ f := by positivity
        simp only [Sign.apply, Int.cast_neg, Int.cast_natCast] at hle ⊢
        linarith
      | positive => rfl
    rw [hmagnitude] at hle
    have hbound := hx.ge_of_ge n f hn hle
    have he : e ≤ 971 := by
      by_contra hover
      have hleast : (-1074 : ℤ) ≤ 971 := by norm_num
      have hfull := hm.full.resolve_right (by omega)
      exact (hn.lt_of_lt hfull (by omega)).not_ge hbound
    rw [le_iff_value (isFinite_ofSigned hm he _) hb, value_ofSigned hm he, hmagnitude]
    exact hbound

theorem ofSigned_negative (m : ℕ) (e : ℤ) :
    ofSigned .negative m e = -ofSigned .positive m e := by
  have hsign : signed .negative m e = withSign .negative (signed .positive m e) := by
    unfold signed
    split <;> rfl
  have hnumber := isNaN_signed .positive m e
  have hunpack : (ofSigned .negative m e).toModel.unpack =
      withSign .negative (ofSigned .positive m e).toModel.unpack := by
    change unpack .binary64 (pack .binary64 (signed .negative m e)) = _
    rw [hsign, unpack_pack_withSign hnumber]
    rfl
  have hpositive : (ofSigned .positive m e).toModel.unpack =
      withSign .positive (ofSigned .positive m e).toModel.unpack := by
    have hstill : signed .positive m e = withSign .positive (signed .positive m e) := by
      unfold signed
      split <;> rfl
    change unpack .binary64 (pack .binary64 (signed .positive m e)) = _
    rw [hstill, unpack_pack_withSign hnumber]
    rfl
  have hneg (u : UnpackedFloat) : (withSign .positive u).neg = withSign .negative u := by
    cases u <;> rfl
  rw [← ofModel_pack_unpack (ofSigned .negative m e),
    ← ofModel_pack_unpack (-ofSigned .positive m e), unpack_neg, hunpack, hpositive, hneg]
  cases (ofSigned .positive m e).toModel.unpack <;> rfl

theorem rounds_ofSigned {m : ℕ} {e : ℤ} (hm : Canonical m e) (hx : Brackets x m e) (h0 : 0 ≤ x)
    (s : Sign) : Rounds ((s.apply 1 : ℤ) * x) (ofSigned s m e) := by
  have hpositive := rounds_ofSigned_positive hm hx h0
  cases s with
  | negative =>
    rw [ofSigned_negative]
    simpa [Sign.apply] using hpositive.neg
  | positive => simpa [Sign.apply] using hpositive

theorem rounds_roundWithAccuracy (s : Sign) {m : ℕ} {e : ℤ} (hm : 0 < m)
    (he : e ≤ max (m.log2 + e - 52) (-1074)) :
    Rounds ((s.apply m : ℤ) * 2 ^ e)
      (.ofModel (.pack (roundWithAccuracy .binary64 s m e .exact))) := by
  obtain ⟨n, f, hn, hbrackets, heq⟩ := roundWithAccuracy_eq s hm he
  rw [heq, apply_mul]
  exact rounds_ofSigned hn hbrackets (by positivity) s

theorem log2_shiftLeft {m : ℕ} (hm : 0 < m) (k : ℕ) : (m <<< k).log2 = m.log2 + k := by
  have hlow : 2 ^ m.log2 ≤ m := Nat.log2_self_le hm.ne'
  have hhigh : m < 2 ^ (m.log2 + 1) := Nat.lt_log2_self
  rw [Nat.shiftLeft_eq, Nat.log2_eq_iff (by positivity), add_right_comm, pow_add, pow_add]
  exact ⟨Nat.mul_le_mul_right _ hlow, Nat.mul_lt_mul_of_pos_right hhigh (Nat.two_pow_pos k)⟩

theorem shiftLeft_mul_two_zpow (m k : ℕ) (e : ℤ) :
    ((m <<< k : ℕ) : ℚ) * 2 ^ (e - k) = m * 2 ^ e := by
  rw [Nat.shiftLeft_eq, zpow_sub₀ (by norm_num), zpow_natCast]
  push_cast
  field_simp

theorem rounds_round (s : Sign) {m : ℕ} (hm : 0 < m) (e : ℤ) :
    Rounds ((s.apply m : ℤ) * 2 ^ e) (.ofModel (.pack (UnpackedFloat.round .binary64 s m e))) := by
  generalize htarget : max ((m.log2 : ℤ) + e - 52) (-1074) = t
  generalize hk : (e - t).toNat = k
  have hlog := log2_shiftLeft hm k
  have hmk : 0 < m <<< k := by
    rw [Nat.shiftLeft_eq]
    positivity
  have hrounds := rounds_roundWithAccuracy s hmk (e := e - k) (by omega)
  rw [apply_mul, shiftLeft_mul_two_zpow, ← apply_mul] at hrounds
  rw [UnpackedFloat.round, targetExponent_eq, htarget, decreaseExponent, hk]
  exact hrounds

theorem rounds_zero (s : Sign) : Rounds 0 (.ofModel (.pack (.zero s))) := by
  have hm : Canonical 0 (-1074) := ⟨by norm_num, le_rfl, .inr rfl⟩
  have hrounds := rounds_value (isFinite_ofSigned hm (by norm_num) s)
  have hvalue : value (ofSigned s 0 (-1074)) = 0 := by
    rw [value_ofSigned hm (by norm_num), apply_mul]
    simp
  rwa [hvalue] at hrounds

theorem rounds_normalize (m : ℤ) (e : ℤ) (s : Sign) :
    Rounds ((m : ℚ) * 2 ^ e) (.ofModel (.pack (UnpackedFloat.normalize .binary64 m e s))) := by
  rw [UnpackedFloat.normalize]
  rcases lt_trichotomy m 0 with hneg | rfl | hpos
  · have hrounds := rounds_round .negative (m := (-m).toNat) (by omega) e
    have hvalue : Sign.negative.apply (-m).toNat = m := by
      rw [Sign.apply]
      omega
    rw [hvalue] at hrounds
    rwa [compare_lt_iff_lt.mpr hneg]
  · simpa using rounds_zero s
  · have hrounds := rounds_round .positive (m := m.toNat) (by omega) e
    have hvalue : Sign.positive.apply m.toNat = m := by
      rw [Sign.apply]
      omega
    rw [hvalue] at hrounds
    rwa [compare_gt_iff_gt.mpr hpos]

theorem apply_decreaseExponent (s : Sign) (m : ℕ) {e f : ℤ} (h : f ≤ e) :
    ((s.apply (decreaseExponent m e f).1 : ℤ) : ℚ) * 2 ^ f = (s.apply m : ℤ) * 2 ^ e := by
  have hshift : (decreaseExponent m e f).1 = m * 2 ^ (e - f).toNat := Nat.shiftLeft_eq ..
  rw [apply_mul, apply_mul, mul_two_zpow_of_le m h, hshift]

theorem zero_or_finite (ha : a.isFinite = true) :
    (value a = 0 ∧ ∃ s, a.toModel.unpack = .zero s) ∨
      ∃ s m e hm, Canonical m e ∧ value a = (s.apply m : ℤ) * 2 ^ e ∧
        a.toModel.unpack = .finite s m e hm := by
  obtain ⟨s, m, e, hcanonical, -, hunpack, hvalue⟩ := exists_signed ha
  rcases Nat.eq_zero_or_pos m with rfl | hm
  · left
    rw [apply_mul] at hvalue
    exact ⟨by simpa using hvalue, s, hunpack⟩
  · right
    rw [signed_of_pos s hm] at hunpack
    exact ⟨s, m, e, hm, hcanonical, hvalue, hunpack⟩

theorem rounds_add (ha : a.isFinite = true) (hb : b.isFinite = true) :
    Rounds (value a + value b) (a + b) := by
  change Rounds _ (.ofModel (.pack (UnpackedFloat.add .binary64 a.toModel.unpack b.toModel.unpack)))
  rcases zero_or_finite ha with ⟨hzero, s, hunpack⟩ | ⟨s, m, e, hm, -, hvalue, hunpack⟩
  · rw [hzero, zero_add]
    rcases zero_or_finite hb with ⟨hzero', t, hunpack'⟩ | ⟨t, n, f, hn, -, -, hunpack'⟩
    · rw [hzero', hunpack, hunpack', UnpackedFloat.add]
      split <;> exact rounds_zero _
    · have hsum : UnpackedFloat.add .binary64 a.toModel.unpack b.toModel.unpack =
          b.toModel.unpack := by
        rw [hunpack, hunpack']
        rfl
      rw [hsum, ofModel_pack_unpack]
      exact rounds_value hb
  · rcases zero_or_finite hb with ⟨hzero', t, hunpack'⟩ | ⟨t, n, f, hn, -, hvalue', hunpack'⟩
    · have hsum : UnpackedFloat.add .binary64 a.toModel.unpack b.toModel.unpack =
          a.toModel.unpack := by
        rw [hunpack, hunpack']
        rfl
      rw [hzero', add_zero, hsum, ofModel_pack_unpack]
      exact rounds_value ha
    · have hrounds := rounds_normalize (s.apply (decreaseExponent m e (min e f)).1 +
        t.apply (decreaseExponent n f (min e f)).1) (min e f) .positive
      rw [Int.cast_add, add_mul, apply_decreaseExponent s m (min_le_left e f),
        apply_decreaseExponent t n (min_le_right e f), ← hvalue, ← hvalue'] at hrounds
      rw [hunpack, hunpack']
      exact hrounds

theorem sub_eq_add_neg_unpacked (u v : UnpackedFloat) :
    UnpackedFloat.sub .binary64 u v = UnpackedFloat.add .binary64 u v.neg := by
  have happly (s : Sign) (m : ℤ) : (-s).apply m = -s.apply m := by
    cases s
    · exact (neg_neg m).symm
    · rfl
  cases u <;> cases v <;> first | rfl | skip
  simp only [UnpackedFloat.sub, UnpackedFloat.neg, UnpackedFloat.add, happly]
  rfl

theorem rounds_sub (ha : a.isFinite = true) (hb : b.isFinite = true) :
    Rounds (value a - value b) (a - b) := by
  have hrounds := rounds_add ha (b := -b) (by rwa [isFinite_neg])
  have hsub : a - b = a + -b := by
    change Float.ofModel (.pack (UnpackedFloat.sub .binary64 a.toModel.unpack b.toModel.unpack)) =
      .ofModel (.pack (UnpackedFloat.add .binary64 a.toModel.unpack (-b).toModel.unpack))
    rw [unpack_neg, sub_eq_add_neg_unpacked]
  rwa [value_neg, ← sub_eq_add_neg, ← hsub] at hrounds

theorem rounds_mul_finite (s t : Sign) {m n : ℕ} {e f : ℤ} (hm : 0 < m) (hn : 0 < n)
    (h : 2 ^ 52 ≤ m * n ∨ e + f ≤ -1074) :
    Rounds ((s.apply m : ℤ) * 2 ^ e * ((t.apply n : ℤ) * 2 ^ f))
      (.ofModel (.pack (.mul .binary64 (.finite s m e hm) (.finite t n f hn)))) := by
  have hpos : 0 < m * n := Nat.mul_pos hm hn
  have hexponent : e + f ≤ max (((m * n).log2 : ℤ) + (e + f) - 52) (-1074) := by
    rcases h with hfull | hsmall
    · have hlog : 52 ≤ (m * n).log2 := (Nat.le_log2 hpos.ne').mpr hfull
      omega
    · omega
  have hrounds := rounds_roundWithAccuracy (s * t) hpos hexponent
  have hsigns : (((s * t).apply 1 : ℤ) : ℚ) = (s.apply 1 : ℤ) * (t.apply 1 : ℤ) := by
    cases s <;> cases t <;> simp [Sign.apply]
  have hproduct : (((s * t).apply (m * n : ℕ) : ℤ) : ℚ) * 2 ^ (e + f) =
      (s.apply m : ℤ) * 2 ^ e * ((t.apply n : ℤ) * 2 ^ f) := by
    rw [apply_mul, apply_mul s, apply_mul t, hsigns, zpow_add₀ (by norm_num)]
    push_cast
    ring
  rwa [hproduct] at hrounds

theorem rounds_mul (ha : a.isFinite = true) (hb : b.isFinite = true) :
    Rounds (value a * value b) (a * b) := by
  change Rounds _ (.ofModel (.pack (.mul .binary64 a.toModel.unpack b.toModel.unpack)))
  rcases zero_or_finite ha with ⟨hzero, s, hunpack⟩ | ⟨s, m, e, hm, hcanonical, hvalue, hunpack⟩
  · rw [hzero, zero_mul, hunpack]
    rcases zero_or_finite hb with ⟨-, t, hunpack'⟩ | ⟨t, n, f, hn, -, -, hunpack'⟩
    · rw [hunpack']
      exact rounds_zero _
    · rw [hunpack']
      exact rounds_zero _
  · rcases zero_or_finite hb with
      ⟨hzero, t, hunpack'⟩ | ⟨t, n, f, hn, hcanonical', hvalue', hunpack'⟩
    · rw [hzero, mul_zero, hunpack, hunpack']
      exact rounds_zero _
    · rw [hvalue, hvalue', hunpack, hunpack']
      apply rounds_mul_finite s t hm hn
      rcases hcanonical.full with hfull | he
      · exact .inl (hfull.trans (Nat.le_mul_of_pos_right m hn))
      · rcases hcanonical'.full with hfull | hf
        · exact .inl (hfull.trans (Nat.le_mul_of_pos_left n hm))
        · right
          omega

theorem rounds_toFloat (w : UInt64) : Rounds w.toNat w.toFloat := by
  have hrounds := rounds_normalize w.toNat 0 .positive
  rw [zpow_zero, mul_one, Int.cast_natCast] at hrounds
  exact hrounds

theorem exists_value_eq {m : ℕ} {e : ℤ} (hm : m < 2 ^ 53) (hleast : -1074 ≤ e) (hmost : e ≤ 971) :
    ∃ b : Float, b.isFinite = true ∧ value b = m * 2 ^ e := by
  rcases Nat.eq_zero_or_pos m with rfl | hpos
  · exact ⟨0, by decide +kernel, by simp [value, unpack_zero]⟩
  have hlog := log2_le_of_lt hm
  generalize hk : min (52 - m.log2) (e + 1074).toNat = k
  have hlog' := log2_shiftLeft hpos k
  have hpos' : m <<< k ≠ 0 := by
    rw [Nat.shiftLeft_eq]
    positivity
  have hcanonical : Canonical (m <<< k) (e - k) := by
    refine ⟨(Nat.log2_lt hpos').mp (by omega), by omega, ?_⟩
    rcases le_total (52 - m.log2) (e + 1074).toNat with h | h
    · left
      exact (Nat.le_log2 hpos').mp (by omega)
    · right
      omega
  have hexponent : e - k ≤ 971 := by omega
  refine ⟨_, isFinite_ofSigned hcanonical hexponent .positive, ?_⟩
  rw [value_ofSigned hcanonical hexponent, ← shiftLeft_mul_two_zpow m k e]
  rfl

theorem isNaN_of_isFinite (ha : a.isFinite = true) : a.isNaN = false := by
  revert ha
  change a.toModel.unpack.isFinite = true → a.toModel.unpack.isNaN = false
  cases a.toModel.unpack <;> simp [UnpackedFloat.isFinite, UnpackedFloat.isNaN]

theorem isFinite_of_le_of_le {c : Float} (ha : a.isFinite = true) (hc : c.isFinite = true)
    (hab : a ≤ b) (hbc : b ≤ c) : b.isFinite = true := by
  rw [float_le_iff, le_iff_rank] at hab hbc
  obtain ⟨-, hb, hab⟩ := hab
  obtain ⟨-, -, hbc⟩ := hbc
  revert ha hc
  change a.toModel.unpack.isFinite = true → c.toModel.unpack.isFinite = true →
    b.toModel.unpack.isFinite = true
  generalize a.toModel.unpack = u at *
  generalize b.toModel.unpack = v at *
  generalize c.toModel.unpack = w at *
  intro ha hc
  rcases v with (_ | _) | _ | _ | _
  · rcases u with (_ | _) | _ | _ | ⟨_ | _, _⟩ <;>
      simp_all [UnpackedFloat.isFinite, rank, Prod.Lex.le_iff]
  · rcases w with (_ | _) | _ | _ | ⟨_ | _, _⟩ <;>
      simp_all [UnpackedFloat.isFinite, rank, Prod.Lex.le_iff]
  · cases hb
  · rfl
  · rfl

theorem Rounds.value_eq (h : Rounds x a) (hb : b.isFinite = true) (hx : value b = x) :
    a.isFinite = true ∧ value a = x := by
  have hba := h.le_of_le b hb hx.le
  have hab := h.ge_of_ge b hb hx.ge
  have ha := isFinite_of_le_of_le hb hb hba hab
  rw [le_iff_value hb ha] at hba
  rw [le_iff_value ha hb] at hab
  exact ⟨ha, by linarith⟩

theorem value_one : value 1 = 1 := by
  have hunpack : (1 : Float).toModel.unpack = signed .positive (2 ^ 52) (-52) := rfl
  rw [value_of_unpack_eq hunpack, Sign.apply]
  norm_num

theorem ofScientific_of_pos {n : ℕ} (hn : 0 < n) (hlong : 0 < n <<< Format.binary64.mantissaBits) :
    UnpackedFloat.ofScientific .binary64 n 0 = .mul .binary64
      (.finite .positive (n <<< Format.binary64.mantissaBits) (-(Format.binary64.mantissaBits : ℤ))
        hlong)
      (.finite .positive (10 ^ (0 : ℤ).toNat) 0 (Nat.pow_pos Nat.succ_pos')) := by
  have hsmall : ¬ (0 : ℤ) > 2 ^ 11 := by norm_num
  have hlarge : ¬ (0 : ℤ) < -(2 ^ 11 + n.log2) := by omega
  rw [UnpackedFloat.ofScientific, dif_neg hn.ne', if_neg hsmall, if_neg hlarge, if_pos le_rfl]

theorem rounds_ofNat (n : ℕ) : Rounds n (Float.ofNat n) := by
  have hunfold : Float.ofNat n = Float.ofScientific n false 0 := rfl
  rw [hunfold, Float.ofScientific]
  split
  case isTrue hsmall =>
    obtain ⟨b, hb, hvalue⟩ := exists_value_eq hsmall.1 (e := 0) (by norm_num) (by norm_num)
    have hword : n.toUInt64.toNat = n := UInt64.toNat_ofNat_of_lt' (hsmall.1.trans (by norm_num))
    have hrounds := rounds_toFloat n.toUInt64
    rw [hword] at hrounds
    obtain ⟨hfinite, hexact⟩ := hrounds.value_eq hb (by rw [hvalue, zpow_zero, mul_one])
    have hproduct := rounds_mul hfinite (b := 1) (by decide +kernel)
    rw [hexact, value_one, mul_one] at hproduct
    exact hproduct
  case isFalse =>
    change Rounds n (.ofModel (.pack (.ofScientific .binary64 n 0)))
    rcases Nat.eq_zero_or_pos n with rfl | hn
    · rw [Nat.cast_zero]
      exact rounds_zero .positive
    · have hlong : 2 ^ 53 ≤ n <<< Format.binary64.mantissaBits := by
        rw [Nat.shiftLeft_eq]
        exact Nat.le_mul_of_pos_left _ hn
      have hrounds := rounds_mul_finite .positive .positive
        (e := -(Format.binary64.mantissaBits : ℤ))
        (f := 0) (by omega : 0 < n <<< Format.binary64.mantissaBits)
        (Nat.pow_pos Nat.succ_pos' : 0 < 10 ^ (0 : ℤ).toNat) (.inl (by
          rw [Int.toNat_zero, pow_zero, mul_one]
          omega))
      have hvalue := shiftLeft_mul_two_zpow n Format.binary64.mantissaBits 0
      rw [zero_sub, zpow_zero, mul_one] at hvalue
      have hpower : ((10 ^ (0 : ℤ).toNat : ℕ) : ℚ) = 1 := Nat.cast_one
      rw [apply_positive, apply_positive, hvalue, hpower, zpow_zero, mul_one, mul_one] at hrounds
      rw [ofScientific_of_pos hn]
      exact hrounds

end Rounding

end PopulationSearch.Binary64
