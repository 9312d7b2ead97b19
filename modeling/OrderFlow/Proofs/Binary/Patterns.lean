import Mathlib
import OrderFlow.Binary.Basic

/-! Bit patterns of doubles. The pattern of a finite double is kept when the double is made from
it, and the exact meaning read off it is what arithmetic works on. -/
namespace OrderFlow.Binary
open Float.Model Float.Model.UnpackedFloat
variable {b : BitVec Format.binary64.numBits} {sign : Sign} {m s : Nat} {e : Int} {x : Float}
  {negative : Bool}

lemma exponentBits_binary64 : Format.binary64.exponentBits = 11 := rfl

lemma mantissaBitsWithoutImplicit_binary64 : Format.binary64.mantissaBitsWithoutImplicit = 52 := rfl

lemma mantissaBits_binary64 : Format.binary64.mantissaBits = 53 := rfl

lemma exponentBias_binary64 : Format.binary64.exponentBias = 1023 := rfl

lemma minExponent_binary64 : Format.binary64.minExponent = -1074 := rfl

lemma toNat_unpackExponent (b : BitVec Format.binary64.numBits) :
    (unpackExponent b).toNat = b.toNat / 2 ^ 52 % 2 ^ 11 := by
  rw [unpackExponent, BitVec.toNat_cast, BitVec.extractLsb_toNat, Nat.shiftRight_eq_div_pow]
  rfl

lemma toNat_unpackMantissa (b : BitVec Format.binary64.numBits) :
    (unpackMantissa b).toNat = b.toNat % 2 ^ 52 := by
  rw [unpackMantissa, BitVec.toNat_cast, BitVec.extractLsb_toNat, Nat.shiftRight_zero]
  rfl

lemma toNat_implicit (v : BitVec 52) : (1#1 ++ v).toNat = 2 ^ 52 + v.toNat := by
  rw [BitVec.toNat_append, ← Nat.shiftLeft_add_eq_or_of_lt v.isLt, Nat.shiftLeft_eq]
  rfl

/-- A double whose exponent is not too large is packed as it is. -/
lemma pack_finite {hm : 0 < m} (he : e ≤ 971) :
    UnpackedFloat.pack Format.binary64 (.finite sign m e hm) =
      packComponents Format.binary64 sign
        (if m.log2 = 52 then BitVec.ofNat 11 (e + 1075).toNat else 0#11) (BitVec.ofNat 52 m) := by
  have hexponent : (e + (1023 : Nat) + (52 : Nat)).toNat = (e + 1075).toNat := by
    congr 1
    omega
  rw [UnpackedFloat.pack]
  simp only [exponentBits_binary64, mantissaBitsWithoutImplicit_binary64, exponentBias_binary64,
    mantissaBits_binary64, hexponent]
  rw [if_neg (by omega)]
  by_cases hlog : m.log2 = 52
  · rw [if_pos (by omega), if_pos hlog]
  · rw [if_neg (by omega), if_neg hlog]

/-- A finite pattern is the pattern of the double made from it. -/
theorem toBits_ofBits {bits : UInt64} (h : bits.toNat / 2 ^ 52 % 2 ^ 11 ≠ 2047) :
    (Float.ofBits bits).toBits = bits := by
  have hnumber : @isNaNBits Format.binary64 bits.toBitVec = false := by
    refine decide_eq_false fun hnan => h ?_
    rw [← UInt64.toNat_toBitVec, ← toNat_unpackExponent, hnan.1]
    rfl
  change UInt64.ofBitVec (UnpackedFloat.pack Format.binary64
    (UnpackedFloat.unpack Format.binary64 bits.toBitVec)) = bits
  rw [UnpackedFloat.pack_unpack, hnumber]
  rfl

/-- Every double is made from its own pattern. -/
theorem ofBits_toBits (x : Float) : Float.ofBits x.toBits = x := by
  obtain ⟨⟨bits,valid⟩⟩ := x
  simp only [Float.ofBits, Float.toBits, Float.Model.ofBits, Float.Model.pack]
  congr 2
  rw [pack_unpack_of_valid valid]

lemma eq_withSign {bits : Nat} (h : x.toBits.toNat = if negative then 2 ^ 63 + bits else bits) :
    x = withSign negative bits := by
  rw [withSign, ← h, UInt64.ofNat_toNat, ofBits_toBits]

lemma eq_withSign_of_exact (h : exact x = .finite negative m s) :
    x = withSign negative (s * 2 ^ 52 + m) := by
  refine eq_withSign ?_
  have hlt := x.toBits.toNat_lt
  rw [exact, exactOfBits] at h
  split_ifs at h <;> cases h <;> simp only [decide_eq_true_eq] <;> split_ifs <;> omega

lemma eq_infinity_of_exact (h : exact x = .infinite negative) : x = infinity negative := by
  refine eq_withSign ?_
  have hlt := x.toBits.toNat_lt
  rw [exact, exactOfBits] at h
  split_ifs at h
  cases h
  simp only [decide_eq_true_eq]
  split_ifs <;> omega

/-- There is one pattern for what is not a number. -/
lemma eq_nan_of_exact (h : exact x = .nan) : x = nan := by
  have hbits : x.toBits.toNat = x.toBits.toBitVec.toNat := rfl
  have hinfinite : @unpackExponent Format.binary64 x.toBits.toBitVec = -1#11 ↔
      (@unpackExponent Format.binary64 x.toBits.toBitVec).toNat = 2047 := BitVec.toNat_eq
  have hnone : @unpackMantissa Format.binary64 x.toBits.toBitVec = 0#52 ↔
      (@unpackMantissa Format.binary64 x.toBits.toBitVec).toNat = 0 := BitVec.toNat_eq
  rw [exact, exactOfBits, hbits, ← toNat_unpackExponent, ← toNat_unpackMantissa] at h
  split_ifs at h with hexponent hfraction
  have hpattern := x.toModel.valid.eq_packedNaN (hinfinite.mpr hexponent) (mt hnone.mp hfraction)
  have hnan : (packedNaN Format.binary64).toNat = 2047 * 2 ^ 52 + 2 ^ 51 := by decide
  refine eq_withSign ?_
  rw [if_neg (by decide), ← hnan]
  exact congrArg BitVec.toNat hpattern

/-- Arithmetic takes a finite double for what it exactly stands for. -/
theorem unpack_of_exact {x : Float} {negative : Bool} (h : exact x = .finite negative m s) :
    (m = 0 ∧ ∃ sign, x.toModel.unpack = .zero sign) ∨
      ∃ sign hm, x.toModel.unpack = .finite sign m (s - 1074) hm := by
  obtain ⟨b,hb⟩ : ∃ b : BitVec Format.binary64.numBits, x.toModel.toBits.toBitVec = b := ⟨_,rfl⟩
  have hbits : x.toBits.toNat = b.toNat := by rw [← hb]; rfl
  have hinfinite : unpackExponent b = -1#11 ↔ (unpackExponent b).toNat = 2047 := BitVec.toNat_eq
  have hleast : unpackExponent b = 0#11 ↔ (unpackExponent b).toNat = 0 := BitVec.toNat_eq
  have hnone : unpackMantissa b = 0#52 ↔ (unpackMantissa b).toNat = 0 := BitVec.toNat_eq
  rw [exact, exactOfBits, hbits, ← toNat_unpackExponent, ← toNat_unpackMantissa] at h
  rw [Float.Model.unpack, hb]
  unfold UnpackedFloat.unpack
  simp only [exponentBias_binary64, hinfinite, hleast, hnone]
  split_ifs at h ⊢ with _ _ hzero hfraction <;> cases h
  · exact .inl ⟨hfraction,_,rfl⟩
  · refine .inr ⟨Sign.ofBitVec (unpackSign b),Nat.pos_of_ne_zero hfraction,?_⟩
    congr 1
    rw [hzero]
    rfl
  · refine .inr ⟨Sign.ofBitVec (unpackSign b),by omega,?_⟩
    congr 1
    · exact toNat_implicit _
    · omega

end OrderFlow.Binary
