import TraceForge.Generator.Schedule
import TraceForge.Library.Residues

/-! What a draw makes of the engine's outputs.

`bounded` rejects the outputs below its threshold and reduces the others. The threshold, computed as
a negation, is the remainder of `2 ^ 64` (`toNat_threshold`), so the accepted outputs hold every
residue equally often: a draw that is a function of the residue is as fair as the engine. -/
namespace TraceForge.Generator
open Library
open Signed

namespace PortableRandom

/-- The output that the engine gives next. -/
def next (random : PortableRandom) : UInt64 := random.engine.outputs random.drawn

def advance (random : PortableRandom) : PortableRandom := { random with drawn := random.drawn + 1 }

/-- The outputs that `bounded` does not reject. -/
def accepted (upperExclusive : UInt64) : Set UInt64 := {v | threshold upperExclusive ≤ v}

/-- The outputs on which a draw ends at once, and what it ends with. -/
def outputsGiving {β : Type} (draw result : PortableRandom → β) : Set UInt64 :=
  {v | ∀ random : PortableRandom, random.next = v → draw random = result random.advance}

/-! ### One output -/

variable {upperExclusive : UInt64}

theorem bounded_accepted (h : upperExclusive ≠ 0) {random : PortableRandom}
    (hnext : random.next ∈ accepted upperExclusive) :
    random.bounded upperExclusive = (random.next % upperExclusive, random.advance) := by
  have hfind : Nat.find (random.exists_value h) = random.drawn :=
    (Nat.find_eq_iff _).mpr ⟨⟨Nat.le_refl _, hnext⟩, fun m hm hfound =>
      absurd hfound.1 (Nat.not_le.mpr hm)⟩
  rw [bounded, dif_neg h]
  simp only [hfind]
  rfl

theorem bounded_rejected (h : upperExclusive ≠ 0) {random : PortableRandom}
    (hnext : random.next ∉ accepted upperExclusive) :
    random.bounded upperExclusive = random.advance.bounded upperExclusive := by
  have hfind : Nat.find (random.exists_value h) = Nat.find (random.advance.exists_value h) := by
    obtain ⟨hlow, hfound⟩ := Nat.find_spec (random.advance.exists_value h)
    refine (Nat.find_eq_iff _).mpr ⟨⟨Nat.le_of_succ_le hlow, hfound⟩, fun m hm hsooner => ?_⟩
    obtain ⟨hle, haccepted⟩ := hsooner
    rcases Nat.lt_or_eq_of_le hle with hlt | rfl
    · exact Nat.find_min (random.advance.exists_value h) hm ⟨hlt, haccepted⟩
    · exact hnext haccepted
  rw [bounded, dif_neg h, bounded, dif_neg h]
  simp only [hfind]
  rfl

/-- A draw never gives an output back. -/
theorem bounded_drawn (h : upperExclusive ≠ 0) (random : PortableRandom) :
    random.drawn < (random.bounded upperExclusive).2.drawn := by
  rw [bounded, dif_neg h]
  exact Nat.lt_succ_of_le (Nat.find_spec (random.exists_value h)).1

/-- An engine whose next output is this one. -/
theorem exists_next (v : UInt64) : ∃ random : PortableRandom, random.next = v :=
  ⟨{ engine :=
      { outputs := fun n => if n = 0 then v else 0x8000000000000000
        recurs := fun n => ⟨n + 1, Nat.le_succ n, by simp⟩ } }, rfl⟩

/-- **A draw that reads one bounded number** gives this result on the accepted outputs whose residue
does. -/
theorem outputsGiving_bounded {α β : Type} (h : upperExclusive ≠ 0) {f : UInt64 → α}
    {g : α × PortableRandom → β} (hg : Function.Injective g) (a : α) :
    outputsGiving (fun random =>
        g (f (random.bounded upperExclusive).1, (random.bounded upperExclusive).2))
      (fun random => g (a, random)) =
      {v | v ∈ accepted upperExclusive ∧ f (v % upperExclusive) = a} := by
  ext v
  constructor
  · intro hv
    obtain ⟨random, rfl⟩ := exists_next v
    obtain ⟨hvalue, hrandom⟩ := Prod.ext_iff.mp (hg (hv random rfl))
    by_cases haccepted : random.next ∈ accepted upperExclusive
    · rw [bounded_accepted h haccepted] at hvalue
      exact ⟨haccepted, hvalue⟩
    · have hlater := bounded_drawn h random.advance
      rw [← bounded_rejected h haccepted] at hlater
      exact absurd (congrArg PortableRandom.drawn hrandom) (Nat.ne_of_gt hlater)
  · rintro ⟨haccepted, hvalue⟩ random rfl
    simp only [bounded_accepted h haccepted, hvalue]

/-! ### Counting -/

/-- **The threshold** is what is left of `2 ^ 64`. -/
theorem toNat_threshold (h : upperExclusive ≠ 0) :
    (threshold upperExclusive).toNat = 2 ^ 64 % upperExclusive.toNat := by
  have hlt := upperExclusive.toNat_lt
  have hpos : 0 < upperExclusive.toNat := Nat.pos_of_ne_zero fun hzero =>
    h (UInt64.toNat_inj.mp hzero)
  have hnegated : (0 - upperExclusive).toNat = 2 ^ 64 - upperExclusive.toNat := by
    rw [UInt64.toNat_sub, UInt64.toNat_zero, Nat.add_zero]
    exact Nat.mod_eq_of_lt (by omega)
  rw [threshold, UInt64.toNat_mod, hnegated, ← Nat.mod_eq_sub_mod (Nat.le_of_lt hlt)]

theorem mem_accepted (h : upperExclusive ≠ 0) (v : UInt64) :
    v ∈ accepted upperExclusive ↔ 2 ^ 64 % upperExclusive.toNat ≤ v.toNat := by
  rw [← toNat_threshold h]
  exact UInt64.le_iff_toNat_le

theorem ncard_residue (h : upperExclusive ≠ 0) {r : UInt64} (hr : r < upperExclusive) :
    {v | v ∈ accepted upperExclusive ∧ v % upperExclusive = r}.ncard =
      2 ^ 64 / upperExclusive.toNat := by
  rw [← Residues.ncard_residue (UInt64.lt_iff_toNat_lt.mp hr)]
  simp only [mem_accepted h, ← UInt64.toNat_inj, UInt64.toNat_mod]

theorem ncard_residues (h : upperExclusive ≠ 0) {bound : UInt64} (hbound : bound ≤ upperExclusive) :
    {v | v ∈ accepted upperExclusive ∧ v % upperExclusive < bound}.ncard =
      bound.toNat * (2 ^ 64 / upperExclusive.toNat) := by
  rw [← Residues.ncard_residues (UInt64.le_iff_toNat_le.mp hbound)]
  simp only [mem_accepted h, UInt64.lt_iff_toNat_lt, UInt64.toNat_mod]

theorem ncard_accepted (h : upperExclusive ≠ 0) : (accepted upperExclusive).ncard =
    upperExclusive.toNat * (2 ^ 64 / upperExclusive.toNat) := by
  rw [← ncard_residues h (UInt64.le_refl _)]
  congr 1
  ext v
  exact (and_iff_left (UInt64.mod_lt _ (UInt64.pos_iff_ne_zero.mpr h))).symm

end PortableRandom

/-! ### The draws of the generator -/

open PortableRandom

/-- The jitter's width is a number of residues. -/
theorem toNat_width {maxJitterNs : Int64} (hpos : 0 < maxJitterNs)
    (hmax : maxJitterNs ≤ (Int64.maxValue - 1) / 2) :
    0 < maxJitterNs.toInt ∧ maxJitterNs.toInt < 2 ^ 62 ∧
      ((maxJitterNs * 2 + 1).toUInt64.toNat : ℤ) = 2 * maxJitterNs.toInt + 1 := by
  have hhalf : ((Int64.maxValue - 1) / 2).toInt = 2 ^ 62 - 1 := by decide
  have htwo : (2 : Int64).toInt = 2 := rfl
  have hone : (1 : Int64).toInt = 1 := rfl
  have hpos := Int64.lt_iff_toInt_lt.mp hpos
  have hmax := Int64.le_iff_toInt_le.mp hmax
  rw [Int64.toInt_zero] at hpos
  have hdouble : (maxJitterNs * 2).toInt = maxJitterNs.toInt * 2 :=
    toInt_mul (by rw [htwo]; constructor <;> omega)
  have hwidth : (maxJitterNs * 2 + 1).toInt = maxJitterNs.toInt * 2 + 1 := by
    rw [toInt_add (by rw [hdouble, hone]; constructor <;> omega), hdouble, hone]
  refine ⟨hpos, by omega, ?_⟩
  rw [toNat_toUInt64 (by omega), hwidth]
  omega

/-- The residue that a jitter is made from. -/
theorem toInt64_sub_eq_iff {maxJitterNs jitterNs : Int64} {residue : UInt64}
    (hmax : maxJitterNs.toInt < 2 ^ 62) (hresidue : (residue.toNat : ℤ) ≤ 2 * maxJitterNs.toInt)
    (hlow : -maxJitterNs.toInt ≤ jitterNs.toInt) (hhigh : jitterNs.toInt ≤ maxJitterNs.toInt) :
    residue.toInt64 - maxJitterNs = jitterNs ↔ residue = (jitterNs + maxJitterNs).toUInt64 := by
  have hcast : residue.toInt64.toInt = residue.toNat := toInt_toInt64 (by omega)
  have hjitter : (residue.toInt64 - maxJitterNs).toInt = residue.toNat - maxJitterNs.toInt := by
    rw [toInt_sub (by rw [hcast]; constructor <;> omega), hcast]
  have hsum : (jitterNs + maxJitterNs).toInt = jitterNs.toInt + maxJitterNs.toInt :=
    toInt_add (by constructor <;> omega)
  have hback := toNat_toUInt64 (x := jitterNs + maxJitterNs) (by omega)
  rw [← Int64.toInt_inj, ← UInt64.toNat_inj, hjitter]
  omega

/-- **A jitter** of every size is as likely as any other. -/
theorem ncard_jitter {maxJitterNs jitterNs : Int64} (hpos : 0 < maxJitterNs)
    (hmax : maxJitterNs ≤ (Int64.maxValue - 1) / 2) (hlow : -maxJitterNs.toInt ≤ jitterNs.toInt)
    (hhigh : jitterNs.toInt ≤ maxJitterNs.toInt) :
    (outputsGiving (fun random => sampleJitter random maxJitterNs)
        fun random => .ok (jitterNs, random)).ncard =
      2 ^ 64 / (2 * maxJitterNs.toInt + 1).toNat := by
  obtain ⟨hpos', hmax', hwidth⟩ := toNat_width hpos hmax
  have hne : maxJitterNs ≠ 0 := by
    rintro rfl
    exact absurd hpos (by decide)
  have hzero : (maxJitterNs * 2 + 1).toUInt64 ≠ 0 := by
    intro h
    rw [h, UInt64.toNat_zero] at hwidth
    omega
  have hdraw : (fun random => sampleJitter random maxJitterNs) = fun random =>
      Except.ok ((random.bounded (maxJitterNs * 2 + 1).toUInt64).1.toInt64 - maxJitterNs,
        (random.bounded (maxJitterNs * 2 + 1).toUInt64).2) := by
    funext random
    rw [sampleJitter, if_neg hne, if_neg (Int64.not_lt.mpr hmax)]
  have hsum : (jitterNs + maxJitterNs).toInt = jitterNs.toInt + maxJitterNs.toInt :=
    toInt_add (by constructor <;> omega)
  have hback := toNat_toUInt64 (x := jitterNs + maxJitterNs) (by omega)
  have hresidue : (jitterNs + maxJitterNs).toUInt64 < (maxJitterNs * 2 + 1).toUInt64 := by
    rw [UInt64.lt_iff_toNat_lt]
    omega
  have hnat : (maxJitterNs * 2 + 1).toUInt64.toNat = (2 * maxJitterNs.toInt + 1).toNat := by omega
  rw [hdraw, outputsGiving_bounded hzero (fun _ _ => Except.ok.inj)
    (f := fun residue => residue.toInt64 - maxJitterNs), ← hnat, ← ncard_residue hzero hresidue]
  congr 1
  ext v
  have hlt := UInt64.lt_iff_toNat_lt.mp (UInt64.mod_lt v (UInt64.pos_iff_ne_zero.mpr hzero))
  exact and_congr_right fun _ => toInt64_sub_eq_iff hmax' (by omega) hlow hhigh

/-- **A chance** is taken on its share of the accepted outputs. -/
theorem ncard_chance {perMillion : UInt32} (h : perMillion ≤ kProbabilityScale) :
    (outputsGiving (chance perMillion) fun random => (true, random)).ncard =
      perMillion.toNat * (2 ^ 64 / kProbabilityScale.toNat) := by
  have hscale : kProbabilityScale.toUInt64 ≠ 0 := by decide
  have hbound : perMillion.toUInt64 ≤ kProbabilityScale.toUInt64 := by
    rw [UInt64.le_iff_toNat_le]
    exact UInt32.le_iff_toNat_le.mp h
  rw [← UInt32.toNat_toUInt64 perMillion, ← UInt32.toNat_toUInt64 kProbabilityScale,
    ← ncard_residues hscale hbound]
  have hall := outputsGiving_bounded hscale (g := id)
    (f := fun residue => decide (residue < perMillion.toUInt64)) Function.injective_id true
  refine (congrArg Set.ncard hall).trans ?_
  simp only [decide_eq_true_eq]

/-- **Bounded draws are unbiased.** For every bound, the loop rejects fewer than half of the
engine's outputs, and each number below the bound is drawn on as many outputs as any other. A chance
is therefore taken on its share of the accepted outputs, and every jitter is drawn on as many. -/
theorem draws_unbiased :
    (∀ upperExclusive : UInt64, upperExclusive ≠ 0 →
      (∀ random : PortableRandom, random.bounded upperExclusive =
        if threshold upperExclusive ≤ random.next then
          (random.next % upperExclusive, random.advance)
        else random.advance.bounded upperExclusive) ∧
      2 ^ 64 < 2 * (accepted upperExclusive).ncard ∧
      ∀ r < upperExclusive, (outputsGiving (bounded upperExclusive) fun random =>
        (r, random)).ncard = 2 ^ 64 / upperExclusive.toNat) ∧
    (∀ perMillion ≤ kProbabilityScale,
      (outputsGiving (chance perMillion) fun random => (true, random)).ncard * 1000000 =
        perMillion.toNat * (accepted kProbabilityScale.toUInt64).ncard) ∧
    (∀ maxJitterNs : Int64, 0 < maxJitterNs → maxJitterNs ≤ (Int64.maxValue - 1) / 2 →
      ∀ jitterNs : Int64, -maxJitterNs.toInt ≤ jitterNs.toInt →
        jitterNs.toInt ≤ maxJitterNs.toInt →
        (outputsGiving (fun random => sampleJitter random maxJitterNs)
          fun random => .ok (jitterNs, random)).ncard =
            2 ^ 64 / (2 * maxJitterNs.toInt + 1).toNat) := by
  refine ⟨fun upperExclusive h => ⟨fun random => ?_, ?_, fun r hr => ?_⟩, fun perMillion h => ?_,
    fun _ hpos hmax _ hlow hhigh => ncard_jitter hpos hmax hlow hhigh⟩
  · split
    · rename_i hnext
      exact bounded_accepted h hnext
    · rename_i hnext
      exact bounded_rejected h hnext
  · have hpos : 0 < upperExclusive.toNat := Nat.pos_of_ne_zero fun hzero =>
      h (UInt64.toNat_inj.mp hzero)
    rw [ncard_accepted h]
    exact Residues.half_lt hpos (Nat.le_of_lt upperExclusive.toNat_lt)
  · have hall := outputsGiving_bounded h (f := id) (g := id) Function.injective_id r
    exact (congrArg Set.ncard hall).trans (ncard_residue h hr)
  · have hscale : kProbabilityScale.toUInt64.toNat = 1000000 := rfl
    have hscale' : kProbabilityScale.toNat = 1000000 := rfl
    rw [ncard_chance h, ncard_accepted (by decide), hscale, hscale', Nat.mul_assoc,
      Nat.mul_comm (2 ^ 64 / 1000000)]

/-- A die, a chance of one in four, and a jitter of at most three nanoseconds. -/
theorem draws_unbiased_die :
    (outputsGiving (bounded 6) fun random => (5, random)).ncard = 3074457345618258602 ∧
      (outputsGiving (chance 250000) fun random => (true, random)).ncard * 1000000 =
        250000 * (accepted kProbabilityScale.toUInt64).ncard ∧
      (outputsGiving (fun random => sampleJitter random 3) fun random => .ok (-3, random)).ncard =
        2635249153387078802 := by
  obtain ⟨hbounded, hchance, hjitter⟩ := draws_unbiased
  refine ⟨(hbounded 6 (by decide)).2.2 5 (by decide), hchance 250000 (by decide), ?_⟩
  exact hjitter 3 (by decide) (by decide) (-3) (by decide) (by decide)

end TraceForge.Generator
