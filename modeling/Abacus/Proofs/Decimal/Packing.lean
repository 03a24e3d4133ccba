import Mathlib
import Abacus.Proofs.Decimal.Rounding

/-!
# Packed floats

A finite float has a canonical mantissa and exponent (`canonical_of_unpack`), and these come back
when they are packed into bits and unpacked (`unpack_pack_finite`).  So a float is known by what it
unpacks to (`ofModel_pack_unpack`), and an operation is known by what the model makes of the parts
of its operands.
-/

namespace Abacus

namespace Binary64

open Float.Model
open Float.Model.UnpackedFloat

theorem toNat_one_append (b : BitVec 52) : (1#1 ++ b).toNat = 2 ^ 52 + b.toNat := by
  have hor := Nat.two_pow_add_eq_or_of_lt b.isLt 1
  rw [Nat.mul_one] at hor
  rw [BitVec.toNat_append, hor]
  rfl

/-- **The parts of a finite float are canonical.** -/
theorem canonical_of_unpack {b : BitVec Format.binary64.numBits} {s : Sign} {m : Nat} {e : Int}
    {hm : 0 < m} (h : UnpackedFloat.unpack .binary64 b = .finite s m e hm) : Canonical m e := by
  have hmantissa : (unpackMantissa b).toNat < 2 ^ 52 := (unpackMantissa b).isLt
  have hexponent : (unpackExponent b).toNat < 2 ^ 11 := (unpackExponent b).isLt
  unfold UnpackedFloat.unpack at h
  dsimp only at h
  split at h
  · split at h <;> cases h
  · next hlast =>
    have hlast' : (unpackExponent b).toNat ≠ 2 ^ 11 - 1 := fun heq =>
      hlast (BitVec.eq_of_toNat_eq heq)
    split at h
    · next hzero =>
      split at h
      · cases h
      · -- a subnormal number
        cases h
        rw [hzero]
        exact ⟨hm, by omega, .inr (by decide), by decide, by decide⟩
    · next hzero =>
      have hzero' : (unpackExponent b).toNat ≠ 0 := fun heq =>
        hzero (BitVec.eq_of_toNat_eq heq)
      have hfull := toNat_one_append (unpackMantissa b)
      have hbias : Format.binary64.exponentBias = 1023 := by decide
      cases h
      refine ⟨hm, by omega, .inl (by omega), by omega, by omega⟩

theorem unpack_packComponents_normal (s : Sign) {k : BitVec 11} (f : BitVec 52)
    (hlast : k ≠ -1#11) (hzero : k ≠ 0#11) :
    UnpackedFloat.unpack .binary64 (packComponents .binary64 s k f) =
      .finite s (2 ^ 52 + f.toNat) (k.toNat - 1075) (by omega) := by
  have hbias : (Format.binary64.exponentBias : Int) + (52 : Nat) = 1075 := by decide
  unfold UnpackedFloat.unpack
  simp only [unpackMantissa_packComponents, unpackExponent_packComponents,
    unpackSign_packComponents, Sign.ofBitVec_toBitVec]
  rw [if_neg hlast, if_neg hzero]
  simp only [toNat_one_append, hbias]

theorem unpack_packComponents_subnormal (s : Sign) {f : BitVec 52} (hf : 0 < f.toNat) :
    UnpackedFloat.unpack .binary64 (packComponents .binary64 s 0#11 f) =
      .finite s f.toNat (-1074) hf := by
  have hf' : f ≠ 0#52 := by
    rintro rfl
    exact absurd hf (by decide)
  unfold UnpackedFloat.unpack
  simp only [unpackMantissa_packComponents, unpackExponent_packComponents,
    unpackSign_packComponents, Sign.ofBitVec_toBitVec]
  rw [if_neg (by decide), if_pos trivial, dif_neg hf']
  rfl

/-- **What is packed comes back.** -/
theorem unpack_pack_finite {m : Nat} {e : Int} (h : Canonical m e) (s : Sign) :
    UnpackedFloat.unpack .binary64 (UnpackedFloat.pack .binary64 (.finite s m e h.pos)) =
      .finite s m e h.pos := by
  obtain ⟨n, rfl⟩ : ∃ n : Nat, e = n - 1075 := ⟨(e + 1075).toNat, by have := h.least_le; omega⟩
  have hleast := h.least_le
  have hgreatest := h.le_greatest
  have hlt := h.lt
  have hbiased : ((n : Int) - 1075 + Format.binary64.exponentBias + (52 : Nat)).toNat = n := by
    have hbias : Format.binary64.exponentBias = 1023 := by decide
    omega
  have hsmall : ¬ 2 ^ 11 ≤ n + 1 := by omega
  unfold UnpackedFloat.pack
  simp only [hbiased, if_neg hsmall]
  by_cases hfull : 2 ^ 52 ≤ m
  · -- a normal number
    have hlog : m.log2 + 1 = Format.binary64.mantissaBits := congrArg Nat.succ (h.log2_eq hfull)
    have hk : (BitVec.ofNat 11 n).toNat = n := by
      rw [BitVec.toNat_ofNat]
      omega
    have hf : 2 ^ 52 + (BitVec.ofNat 52 m).toNat = m := by
      rw [BitVec.toNat_ofNat]
      omega
    rw [if_pos hlog, unpack_packComponents_normal]
    · simp only [hk, hf]
    · intro heq
      have hn : n = 2047 := hk.symm.trans (congrArg BitVec.toNat heq)
      omega
    · intro heq
      have hn : n = 0 := hk.symm.trans (congrArg BitVec.toNat heq)
      omega
  · -- a subnormal one
    have hlow : m.log2 < 52 := (Nat.log2_lt h.pos.ne').2 (by omega)
    have hlog : m.log2 + 1 ≠ Format.binary64.mantissaBits := by
      show m.log2 + 1 ≠ 53
      omega
    have hf : (BitVec.ofNat 52 m).toNat = m := by
      rw [BitVec.toNat_ofNat]
      omega
    have he : (n : Int) - 1075 = -1074 := h.full.resolve_left hfull
    rw [if_neg hlog, unpack_packComponents_subnormal s (by rw [hf]; exact h.pos)]
    simp only [hf, he]

/-! ### Floats -/

/-- The float with the given parts. -/
def float (s : Sign) {m : Nat} {e : Int} (h : Canonical m e) : Float :=
  .ofModel (.pack (.finite s m e h.pos))

theorem unpack_float (s : Sign) {m : Nat} {e : Int} (h : Canonical m e) :
    (float s h).toModel.unpack = .finite s m e h.pos :=
  unpack_pack_finite h s

/-- A float is known by what it unpacks to. -/
theorem ofModel_pack_unpack (x : Float) : .ofModel (.pack x.toModel.unpack) = x :=
  x.ofBits_toBits

theorem eq_of_unpack_eq {x y : Float} (h : x.toModel.unpack = y.toModel.unpack) : x = y := by
  rw [← ofModel_pack_unpack x, h, ofModel_pack_unpack y]

theorem eq_float {x : Float} {s : Sign} {m : Nat} {e : Int} {hm : 0 < m}
    (h : x.toModel.unpack = .finite s m e hm) : x = float s (canonical_of_unpack h) :=
  eq_of_unpack_eq (h.trans (unpack_float s _).symm)

end Binary64

end Abacus
