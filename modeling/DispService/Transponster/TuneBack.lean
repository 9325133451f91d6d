import DispService.Transponster.CpuTune

/-! The units and the limit of the processors, written into the domain XML and read back. -/
namespace DispService.Transponster

variable {u prototype : CVmCpu} {vt : VtInfo} {v : CVCpuInfo}

/-- The writer, with the units and the limit set. -/
def Reverse.Cpu.tuned (u : CVmCpu) (vt : VtInfo) : Except Fault (CpuResult × Reverse.Cpu) :=
  match (Reverse.Cpu.new u vt).setUnits with
  | (.success, c) => c.setLimit
  | (e, c) => .ok (e, c)

/-- The reader, with the units and the limit set. -/
def Direct.Cpu.tuned (tune : Option Xml.Cputune) (prototype : CVmCpu) (vt : VtInfo) :
    Except Fault (CpuResult × Direct.Cpu) :=
  match (Direct.Cpu.new none tune none prototype vt).setUnits with
  | .ok (.success, c) => c.setLimit
  | o => o

/-- Written and read back, the units and the limit are what they were. -/
def TuneBack (u : CVmCpu) (vt : VtInfo) (prototype : CVmCpu) : Prop :=
  ∃ c d r, Reverse.Cpu.tuned u vt = .ok (.success, c) ∧
    Direct.Cpu.tuned c.tune prototype vt = .ok (.success, d) ∧ d.result = some r ∧
    r.cpuUnits = u.cpuUnits ∧ r.cpuLimit = u.cpuLimitValue

/-- The units that come back: multiples of 125 that are not too many; none where there are none. -/
def UnitsBack (units units' : UInt32) : Prop :=
  if units = 0 then units' = 0 else 125 ∣ units.toNat ∧ units.toNat * 1024 < 2 ^ 32

/-- A number rounded up to a multiple of 100. -/
def roundUp (a : Nat) : Nat :=
  (a + 99) / 100 * 100

/-- The limit that comes back for one processor: the share of the period, rounded up, is less than
that of the next limit and fits. For more processors only no limit comes back. -/
def LimitBack (limit n period : Nat) : Prop :=
  limit = 0 ∨ n = 1 ∧ roundUp (limit * period) < (limit + 1) * period ∧
    roundUp (limit * period) < 2 ^ 31

theorem units_back_iff {units : UInt32} (h : units ≠ 0) (units' : UInt32) :
    (units * 1024 / 1000).toNat * 1000 < 2 ^ 32 ∧
      (units * 1024 / 1000 * 1000 / 1024 = units ↔ UnitsBack units units') := by
  have hshares : (units * 1024 / 1000).toNat = units.toNat * 1024 % 2 ^ 32 / 1000 := by
    simp only [UInt32.toNat_div, UInt32.toNat_mul, UInt32.reduceToNat]
  have hwrap : units.toNat * 1024 % 2 ^ 32 < 2 ^ 32 := Nat.mod_lt _ (by decide)
  have hle : units.toNat * 1024 % 2 ^ 32 ≤ units.toNat * 1024 := Nat.mod_le _ _
  have hfit : (units * 1024 / 1000).toNat * 1000 < 2 ^ 32 := by
    rw [hshares]
    omega
  refine ⟨hfit, ?_⟩
  have hback : (units * 1024 / 1000 * 1000 / 1024).toNat =
      units.toNat * 1024 % 2 ^ 32 / 1000 * 1000 / 1024 := by
    have hscaled : (units * 1024 / 1000 * 1000 / 1024).toNat =
        (units * 1024 / 1000).toNat * 1000 % 2 ^ 32 / 1024 := by
      simp only [UInt32.toNat_div, UInt32.toNat_mul, UInt32.reduceToNat]
    rw [hscaled, Nat.mod_eq_of_lt hfit, hshares]
  rw [UnitsBack, if_neg h, ← UInt32.toNat_inj, hback]
  constructor
  · intro heq
    have hsame : units.toNat * 1024 % 2 ^ 32 = units.toNat * 1024 := by omega
    rw [hsame] at heq hwrap
    exact ⟨by omega, hwrap⟩
  · rintro ⟨⟨k, hk⟩, hlt⟩
    rw [Nat.mod_eq_of_lt hlt, hk]
    omega

/-- For one processor the quota is the share of the period, rounded up. -/
theorem quotaOf_eq {limit period : Nat} (hlimit : limit < 2 ^ 31) (hperiod : period < 2 ^ 31) :
    Reverse.Cpu.quotaOf limit 100 period = (limit * period + 99) / 100 % 2 ^ 32 := by
  have hquint : toQuint64 limit = limit := by
    unfold toQuint64
    omega
  have hproduct : limit * period < 2 ^ 31 * 2 ^ 31 :=
    Nat.mul_lt_mul_of_lt_of_lt hlimit hperiod
  have hhundred : toQuint64 100 = 100 := rfl
  rw [Reverse.Cpu.quotaOf, hquint, hhundred]
  have hsum : (limit * period % 2 ^ 64 + 100 + (2 ^ 64 - 1)) % 2 ^ 64 = limit * period + 99 := by
    omega
  rw [hsum]

theorem toQint32_small {n : Nat} (h : n < 2 ^ 31) : toQint32 n = n := by
  unfold toQint32
  apply Int.bmod_eq_of_le <;> omega

theorem toQint32_wide {n : Nat} (hwide : 2 ^ 31 ≤ n) (h : n < 2 ^ 32) :
    toQint32 n = n - 2 ^ 32 := by
  unfold toQint32
  rw [Int.bmod_def]
  omega

theorem toQint32_eq_zero_iff {n : Nat} (h : n < 2 ^ 32) : toQint32 n = 0 ↔ n = 0 := by
  unfold toQint32
  rw [Int.bmod_def]
  omega

/-- What is read as a positive number of 32 bits is that number. -/
theorem lt_of_toQint32_pos {n : Nat} (h : n < 2 ^ 32) (hpos : 0 < toQint32 n) : n < 2 ^ 31 := by
  by_contra hge
  have hneg := toQint32_wide (Nat.not_lt.mp hge) h
  omega

theorem ofInt_toNat (x : Int) : (UInt32.ofInt x).toNat = (x % 2 ^ 32).toNat :=
  UInt32.toNat_ofNat_of_lt' (show (x % 2 ^ 32).toNat < 2 ^ 32 by omega)

theorem ofInt_eq_ofNat_iff {x : Int} {limit : Nat} (hlimit : limit < 2 ^ 31) (hlow : -2 ^ 31 ≤ x)
    (hhigh : x < 2 ^ 31) : UInt32.ofInt x = UInt32.ofNat limit ↔ x = limit := by
  have hn : (UInt32.ofNat limit).toNat = limit :=
    UInt32.toNat_ofNat_of_lt' (show limit < 2 ^ 32 by omega)
  rw [← UInt32.toNat_inj, ofInt_toNat, hn]
  omega

theorem tdiv_of_nonneg {q : Int} (h : 0 ≤ q) (period : Nat) :
    (q * 100).tdiv period = (q.toNat * 100 / period : Nat) := by
  obtain ⟨m, rfl⟩ := Int.eq_ofNat_of_zero_le h
  exact (Int.ofNat_tdiv (m * 100) period).symm

theorem tdiv_of_nonpos {q : Int} (h : q ≤ 0) (period : Nat) :
    (q * 100).tdiv period = -((-q).toNat * 100 / period : Nat) := by
  rw [show q * 100 = -((-q).toNat * 100 : Nat) by omega, Int.neg_tdiv]
  exact congrArg Neg.neg (Int.ofNat_tdiv ((-q).toNat * 100) period).symm

/-- The limit that is read, where it is not negative. -/
theorem limitOf_eq_iff {q : Int} {period limit : Nat} (hzero : limit ≠ 0) (hlimit : limit < 2 ^ 31)
    (hpos : 0 < period) :
    Direct.Cpu.limitOf q period = .ok (.ofNat limit) ↔
      0 < q ∧ q * 100 < 2 ^ 31 ∧ q.toNat * 100 / period = limit := by
  have hne : UInt32.ofNat limit ≠ 0 := by
    intro heq
    have hnat := congrArg UInt32.toNat heq
    rw [UInt32.toNat_ofNat_of_lt' (show limit < 2 ^ 32 by omega)] at hnat
    exact hzero hnat
  unfold Direct.Cpu.limitOf
  by_cases hq : q = -1
  · rw [if_pos hq]
    refine iff_of_false (fun h => hne (Except.ok.inj h).symm) (by omega)
  rw [if_neg hq]
  by_cases hwide : q * 100 < -2 ^ 31 ∨ 2 ^ 31 ≤ q * 100
  · rw [if_pos hwide]
    exact iff_of_false (by simp) (by omega)
  rw [if_neg hwide, if_neg (by omega), if_neg (by omega), Except.ok.injEq]
  by_cases hsign : 0 < q
  · rw [tdiv_of_nonneg (Int.le_of_lt hsign)]
    have hle : q.toNat * 100 / period ≤ q.toNat * 100 := Nat.div_le_self _ _
    generalize q.toNat * 100 / period = x at hle ⊢
    rw [ofInt_eq_ofNat_iff hlimit (by omega) (by omega)]
    omega
  · rw [tdiv_of_nonpos (Int.not_lt.mp hsign)]
    have hle : (-q).toNat * 100 / period ≤ (-q).toNat * 100 := Nat.div_le_self _ _
    generalize (-q).toNat * 100 / period = x at hle ⊢
    rw [ofInt_eq_ofNat_iff hlimit (by omega) (by omega)]
    exact iff_of_false (by omega) (by omega)

theorem limitOf_ok {q p : Int} {limit : UInt32} (h : Direct.Cpu.limitOf q p = .ok limit) :
    limit = 0 ∨ -2 ^ 31 ≤ q * 100 ∧ q * 100 < 2 ^ 31 ∧ UInt32.ofInt ((q * 100).tdiv p) = limit := by
  unfold Direct.Cpu.limitOf at h
  by_cases hq : q = -1
  · rw [if_pos hq] at h
    exact .inl (Except.ok.inj h).symm
  rw [if_neg hq] at h
  by_cases hwide : q * 100 < -2 ^ 31 ∨ 2 ^ 31 ≤ q * 100
  · rw [if_pos hwide] at h
    exact absurd h (by simp)
  rw [if_neg hwide] at h
  split at h
  · exact absurd h (by simp)
  split at h
  · exact absurd h (by simp)
  exact .inr ⟨by omega, by omega, Except.ok.inj h⟩

/-- The rounded share is the only one that gives the limit. -/
theorem quota_back {a period limit q' n : Nat} (ha : a = limit * period) (hpos : 0 < a)
    (hn : n ≠ 0) (hq : q' = (a + 99) / 100 % 2 ^ 32 / n) (hback : q' * 100 / period = limit) :
    n = 1 ∧ q' = (a + 99) / 100 := by
  have hlow : a ≤ q' * 100 := by
    rw [ha, ← hback]
    exact Nat.div_mul_le_self _ _
  have hmod : (a + 99) / 100 % 2 ^ 32 ≤ (a + 99) / 100 := Nat.mod_le _ _
  have hdiv : (a + 99) / 100 % 2 ^ 32 / n ≤ (a + 99) / 100 % 2 ^ 32 := Nat.div_le_self _ _
  have hceil : (a + 99) / 100 ≤ q' := by omega
  have heq : (a + 99) / 100 % 2 ^ 32 / n = (a + 99) / 100 % 2 ^ 32 := by omega
  have hone : 0 < (a + 99) / 100 % 2 ^ 32 := by omega
  refine ⟨?_, by omega⟩
  by_contra hne
  have hlt := Nat.div_lt_self hone (show 1 < n by omega)
  omega

/-- The quota of a limit that is a negative number is read back as another one: `2 ^ 64` and
`100 * 2 ^ 32` are not close enough. -/
theorem quotaOf_negative {k period m : Nat} (hk : 0 < k) (hle : k ≤ 2 ^ 31) (hpos : 0 < period)
    (hperiod : period < 2 ^ 31) (hm : m * 100 / period = k) :
    Reverse.Cpu.quotaOf (-k) 100 period + m ≠ 2 ^ 32 := by
  have hquint : toQuint64 (-k) = 2 ^ 64 - k := by
    unfold toQuint64
    omega
  have hshare : 0 < k * period := Nat.mul_pos hk hpos
  have hbound : k * period ≤ 2 ^ 31 * 2 ^ 31 := Nat.mul_le_mul hle (Nat.le_of_lt hperiod)
  have hproduct : (2 ^ 64 - k) * period % 2 ^ 64 = 2 ^ 64 - k * period := by
    obtain ⟨p, rfl⟩ := Nat.exists_eq_succ_of_ne_zero (Nat.ne_of_gt hpos)
    have hsplit : (2 ^ 64 - k) * p.succ = 2 ^ 64 - k * p.succ + 2 ^ 64 * p := by
      rw [Nat.sub_mul, Nat.mul_succ (2 ^ 64) p]
      omega
    rw [hsplit, Nat.add_mul_mod_self_left]
    exact Nat.mod_eq_of_lt (by omega)
  have hlow : k * period ≤ m * 100 := by
    rw [← hm]
    exact Nat.div_mul_le_self _ _
  have hhigh : m * 100 < k * period + period := by
    rw [← hm]
    exact Nat.lt_div_mul_add hpos
  have hhundred : toQuint64 100 = 100 := rfl
  rw [Reverse.Cpu.quotaOf, hquint, hproduct, hhundred]
  generalize k * period = z at *
  intro heq
  by_cases hsmall : z < 100
  · have hsum : (2 ^ 64 - z + 100 + (2 ^ 64 - 1)) % 2 ^ 64 = 99 - z := by omega
    rw [hsum] at heq
    omega
  · have hsum : (2 ^ 64 - z + 100 + (2 ^ 64 - 1)) % 2 ^ 64 = 2 ^ 64 - z + 99 := by omega
    rw [hsum] at heq
    generalize hx : (2 ^ 64 - z + 99) / 100 = x at *
    have hrounded : 2 ^ 64 ≤ z + 100 * x ∧ z + 100 * x < 2 ^ 64 + 100 := by omega
    omega

/-- A limit read back from a quota is the one written just for one processor, with a period that is
long enough for it. -/
theorem limitOf_back_iff {limit period n : Nat} (hzero : limit ≠ 0) (hlimit : limit < 2 ^ 31)
    (hpos : 0 < period) (hperiod : period < 2 ^ 31) (hn : n ≠ 0) :
    Direct.Cpu.limitOf (toQint32 ((limit * period + 99) / 100 % 2 ^ 32 / n : Nat))
        (toQint32 period) = .ok (.ofNat limit) ↔ LimitBack limit n period := by
  have hproduct : 0 < limit * period := Nat.mul_pos (Nat.pos_of_ne_zero hzero) hpos
  have hnext : (limit + 1) * period = limit * period + period := Nat.succ_mul _ _
  rw [toQint32_small hperiod, limitOf_eq_iff hzero hlimit hpos, LimitBack, roundUp, hnext,
    or_iff_right hzero]
  have hwidth : (limit * period + 99) / 100 % 2 ^ 32 / n < 2 ^ 32 :=
    Nat.lt_of_le_of_lt (Nat.div_le_self _ _) (Nat.mod_lt _ (by decide))
  constructor
  · rintro ⟨hqpos, hfit, hback⟩
    have hsmall := lt_of_toQint32_pos hwidth hqpos
    rw [toQint32_small hsmall] at hfit hback
    rw [Int.toNat_natCast] at hback
    obtain ⟨hone, hquota⟩ := quota_back rfl hproduct hn rfl hback
    rw [hquota] at hfit hback
    refine ⟨hone, ?_, by omega⟩
    have hlt := Nat.lt_div_mul_add hpos (a := (limit * period + 99) / 100 * 100)
    rw [hback] at hlt
    exact hlt
  · rintro ⟨rfl, hless, hfit⟩
    generalize ha : limit * period = a at *
    have hmod : (a + 99) / 100 % 2 ^ 32 = (a + 99) / 100 := Nat.mod_eq_of_lt (by omega)
    rw [Nat.div_one, hmod, toQint32_small (by omega), Int.toNat_natCast]
    refine ⟨by omega, by omega, ?_⟩
    apply Nat.div_eq_of_lt_le
    · rw [ha]
      omega
    · rw [hnext]
      exact hless

/-- The shares that are written, if any. -/
def sharesOf (u : CVmCpu) : Option UInt32 :=
  if 0 ≠ u.cpuUnits then some (u.cpuUnits * 1024 / 1000) else none

/-- The tuning with the units set. -/
def unitsTune (u : CVmCpu) (vt : VtInfo) (v : CVCpuInfo) : Xml.Cputune :=
  if vt.isGlobalCpuLimit then
    ⟨sharesOf u, some v.defaultPeriod.toNat, some (-1), none, none⟩
  else ⟨sharesOf u, none, none, some v.defaultPeriod.toNat, some (-1)⟩

theorem reverse_setUnits (hv : vt.vCpuInfo = some v) :
    (Reverse.Cpu.new u vt).setUnits = (.success, ⟨u, vt, some (unitsTune u vt v)⟩) := by
  simp only [Reverse.Cpu.new, Reverse.Cpu.setUnits, hv, Option.isSome_some, if_true, unitsTune,
    sharesOf]
  split <;> split <;> rfl

/-- The units that are read. -/
def unitsOf (u prototype : CVmCpu) : UInt32 :=
  if 0 ≠ u.cpuUnits then u.cpuUnits * 1024 / 1000 * 1000 / 1024 else prototype.cpuUnits

theorem unitsOf_iff : unitsOf u prototype = u.cpuUnits ↔
    UnitsBack u.cpuUnits prototype.cpuUnits := by
  unfold unitsOf
  by_cases h : u.cpuUnits = 0
  · rw [if_neg (not_not.mpr h.symm), UnitsBack, if_pos h, h]
  · rw [if_pos (Ne.symm h)]
    exact (units_back_iff h _).2

theorem direct_setUnits {t : Xml.Cputune} (ht : t.shares = sharesOf u) :
    (Direct.Cpu.new none (some t) none prototype vt).setUnits = .ok (.success,
      Direct.Cpu.new none (some t) none { prototype with cpuUnits := unitsOf u prototype } vt) := by
  simp only [Direct.Cpu.new, Direct.Cpu.setUnits, Option.bind_some, ht, sharesOf, unitsOf]
  by_cases h : u.cpuUnits = 0
  · simp only [h, ne_eq, not_true_eq_false, if_false]
  · simp only [Ne.symm h, ne_eq, not_false_eq_true, if_true, (units_back_iff h 0).1]

/-- What is left to be read is the limit. -/
theorem tuneBack_iff_limit {t : Xml.Cputune}
    (hwrite : ∃ c, Reverse.Cpu.tuned u vt = .ok (.success, c) ∧ c.tune = some t)
    (ht : t.shares = sharesOf u) :
    TuneBack u vt prototype ↔ UnitsBack u.cpuUnits prototype.cpuUnits ∧
      ∃ d r, (Direct.Cpu.new none (some t) none
          { prototype with cpuUnits := unitsOf u prototype } vt).setLimit = .ok (.success, d) ∧
        d.result = some r ∧ r.cpuLimit = u.cpuLimitValue := by
  obtain ⟨c, hc, htune⟩ := hwrite
  rw [← unitsOf_iff]
  unfold TuneBack
  constructor
  · rintro ⟨c', d, r, hc', hd, hr, hunits, hlimit⟩
    cases hc.symm.trans hc'
    rw [htune, Direct.Cpu.tuned, direct_setUnits ht] at hd
    obtain ⟨r', hr', hsame⟩ := Direct.Cpu.setLimit_units hd rfl
    cases hr.symm.trans hr'
    exact ⟨hsame.symm.trans hunits, d, r, hd, hr, hlimit⟩
  · rintro ⟨hunits, d, r, hd, hr, hlimit⟩
    obtain ⟨r', hr', hsame⟩ := Direct.Cpu.setLimit_units hd rfl
    cases hr.symm.trans hr'
    refine ⟨c, d, r, hc, ?_, hr, hsame.trans hunits, hlimit⟩
    rw [htune, Direct.Cpu.tuned, direct_setUnits ht]
    exact hd

/-- Without a quota the limit is the one that was there. -/
theorem read_none {t : Xml.Cputune} (ht : t.quota = none) (units : UInt32) :
    (∃ d r, (Direct.Cpu.new none (some t) none
        { prototype with cpuUnits := units } vt).setLimit = .ok (.success, d) ∧
      d.result = some r ∧ r.cpuLimit = u.cpuLimitValue) ↔ prototype.cpuLimit = u.cpuLimitValue := by
  rw [Direct.Cpu.setLimit_none (by simp [Direct.Cpu.new, ht])]
  constructor
  · rintro ⟨d, r, hd, hr, hlimit⟩
    cases hd
    cases hr
    exact hlimit
  · intro hlimit
    exact ⟨_, _, rfl, rfl, hlimit⟩

theorem read_some {t : Xml.Cputune} {quota : Int} {period : Nat} (hq : t.quota = some quota)
    (hp : t.period = some period) (units : UInt32) :
    (∃ d r, (Direct.Cpu.new none (some t) none
        { prototype with cpuUnits := units } vt).setLimit = .ok (.success, d) ∧
      d.result = some r ∧ r.cpuLimit = u.cpuLimitValue) ↔
      Direct.Cpu.limitOf (toQint32 quota) (toQint32 period) = .ok u.cpuLimitValue := by
  rw [Direct.Cpu.setLimit_period rfl rfl hq hp]
  cases hlimit : Direct.Cpu.limitOf (toQint32 quota) (toQint32 period) with
  | error fault => simp [Except.map]
  | ok limit =>
    constructor
    · rintro ⟨d, r, hd, hr, hsame⟩
      cases hd
      cases hr
      exact congrArg Except.ok hsame
    · intro hsame
      exact ⟨_, _, rfl, rfl, Except.ok.inj hsame⟩

/-- The limit that comes back: with the global switch, the one that was there before. -/
def LimitsBack (u : CVmCpu) (vt : VtInfo) (v : CVCpuInfo) (prototype : CVmCpu) : Prop :=
  if vt.isGlobalCpuLimit then prototype.cpuLimit = u.cpuLimitValue
  else LimitBack u.cpuLimitValue.toNat (u.number * u.sockets).toNat v.defaultPeriod.toNat

/-- A limit from half the range on is written as a negative number and never read back. -/
theorem limitOf_wide {limit : UInt32} {period n : Nat} (hwide : 2 ^ 31 ≤ limit.toNat)
    (hpos : 0 < period) (hperiod : period < 2 ^ 31) (hn : n ≠ 0) :
    Direct.Cpu.limitOf
        (toQint32 (Reverse.Cpu.quotaOf (toQint32 limit.toNat) 100 period / n : Nat))
        (toQint32 period) ≠ .ok limit := by
  have hlt : limit.toNat < 2 ^ 32 := limit.toNat_lt
  obtain ⟨k, hk⟩ : ∃ k, limit.toNat + k = 2 ^ 32 := ⟨2 ^ 32 - limit.toNat, by omega⟩
  have hneg : toQint32 limit.toNat = -k := by
    rw [toQint32_wide hwide hlt]
    omega
  have hwidth : Reverse.Cpu.quotaOf (-k) 100 period < 2 ^ 32 := Nat.mod_lt _ (by decide)
  have hdiv : Reverse.Cpu.quotaOf (-k) 100 period / n ≤ Reverse.Cpu.quotaOf (-k) 100 period :=
    Nat.div_le_self _ _
  rw [hneg, toQint32_small hperiod]
  intro h
  obtain hzero | ⟨hlow, hhigh, hread⟩ := limitOf_ok h
  · rw [hzero] at hwide
    exact absurd hwide (by decide)
  have hnat := congrArg UInt32.toNat hread
  rw [ofInt_toNat] at hnat
  generalize hw : Reverse.Cpu.quotaOf (-k) 100 period / n = w at *
  by_cases hsign : 0 ≤ toQint32 w
  · rw [tdiv_of_nonneg hsign] at hnat
    have hle : (toQint32 w).toNat * 100 / period ≤ (toQint32 w).toNat * 100 := Nat.div_le_self _ _
    generalize (toQint32 w).toNat * 100 / period = x at *
    omega
  · have hhalf : 2 ^ 31 ≤ w := by
      by_contra hsmall
      exact hsign (by rw [toQint32_small (by omega)]; omega)
    have hone : n = 1 := by
      by_contra hmany
      have hless := Nat.div_le_div_left (show 2 ≤ n by omega) (by decide : 0 < 2)
        (a := Reverse.Cpu.quotaOf (-k) 100 period)
      omega
    rw [hone, Nat.div_one] at hw
    obtain ⟨m, hm⟩ : ∃ m, w + m = 2 ^ 32 := ⟨2 ^ 32 - w, by omega⟩
    have hq : toQint32 w = -m := by
      rw [toQint32_wide hhalf (by omega)]
      omega
    rw [tdiv_of_nonpos (by omega), hq, Int.neg_neg, Int.toNat_natCast] at hnat
    have hle : m * 100 / period ≤ m * 100 := Nat.div_le_self _ _
    have hsame : m * 100 / period = k := by
      generalize m * 100 / period = x at *
      omega
    exact quotaOf_negative (by omega) (by omega) hpos hperiod hsame (hw ▸ hm)

/-- Without a limit. -/
theorem tuneBack_unlimited (hv : vt.vCpuInfo = some v) (hzero : u.cpuLimitValue = 0) :
    TuneBack u vt prototype ↔ UnitsBack u.cpuUnits prototype.cpuUnits ∧
      LimitsBack u vt v prototype := by
  have hwrite : Reverse.Cpu.tuned u vt = .ok (.success, ⟨u, vt, some (unitsTune u vt v)⟩) := by
    rw [Reverse.Cpu.tuned, reverse_setUnits hv]
    have hnone : toQint32 u.cpuLimitValue.toNat = 0 := by
      rw [toQint32_eq_zero_iff u.cpuLimitValue.toNat_lt, hzero]
      rfl
    exact Reverse.Cpu.setLimit_zero hnone
  unfold LimitsBack
  cases hglobal : vt.isGlobalCpuLimit with
  | true =>
    have htune : unitsTune u vt v =
        ⟨sharesOf u, some v.defaultPeriod.toNat, some (-1), none, none⟩ := by
      rw [unitsTune, if_pos hglobal]
    rw [tuneBack_iff_limit ⟨_, hwrite, rfl⟩ (by rw [htune]), read_none (by rw [htune]), if_pos rfl]
  | false =>
    have htune : unitsTune u vt v =
        ⟨sharesOf u, none, none, some v.defaultPeriod.toNat, some (-1)⟩ := by
      rw [unitsTune, hglobal]
      rfl
    rw [tuneBack_iff_limit ⟨_, hwrite, rfl⟩ (by rw [htune]),
      read_some (by rw [htune]) (by rw [htune]), hzero]
    refine and_congr_right fun _ => iff_of_true rfl ?_
    exact .inl rfl

/-- The limit of a quota for all processors, by every number of them. -/
theorem limitOf_quotaOf_iff {limit : UInt32} {period n : Nat} (hzero : limit ≠ 0)
    (hpos : 0 < period) (hperiod : period < 2 ^ 31) (hn : n ≠ 0) :
    Direct.Cpu.limitOf
        (toQint32 (Reverse.Cpu.quotaOf (toQint32 limit.toNat) 100 period / n : Nat))
        (toQint32 period) = .ok limit ↔ LimitBack limit.toNat n period := by
  have hne : limit.toNat ≠ 0 := fun h => hzero (UInt32.toNat_inj.mp h)
  by_cases hwide : 2 ^ 31 ≤ limit.toNat
  · refine iff_of_false (limitOf_wide hwide hpos hperiod hn) ?_
    rintro (h | ⟨_, _, hfit⟩)
    · exact hne h
    · have hle : limit.toNat * 1 ≤ limit.toNat * period := Nat.mul_le_mul_left _ hpos
      rw [roundUp] at hfit
      omega
  · have hlimit := Nat.not_le.mp hwide
    rw [toQint32_small hlimit, quotaOf_eq hlimit hperiod]
    have hback := limitOf_back_iff hne hlimit hpos hperiod hn
    rw [UInt32.ofNat_toNat] at hback
    exact hback

theorem toQint32_ne_zero {limit : UInt32} (h : limit ≠ 0) : toQint32 limit.toNat ≠ 0 := by
  intro hzero
  exact h (UInt32.toNat_inj.mp ((toQint32_eq_zero_iff limit.toNat_lt).mp hzero))

/-- With the global switch the limit is not read at all. -/
theorem tuneBack_global (hv : vt.vCpuInfo = some v) (hpercents : u.cpuLimitType = .percents)
    (hzero : u.cpuLimitValue ≠ 0) (hglobal : vt.isGlobalCpuLimit = true) :
    TuneBack u vt prototype ↔ UnitsBack u.cpuUnits prototype.cpuUnits ∧
      prototype.cpuLimit = u.cpuLimitValue := by
  have hset := toQint32_ne_zero hzero
  have htune : unitsTune u vt v =
      ⟨sharesOf u, some v.defaultPeriod.toNat, some (-1), none, none⟩ := by
    rw [unitsTune, if_pos hglobal]
  have hwrite : Reverse.Cpu.tuned u vt = .ok (.success, ⟨u, vt, some
      { unitsTune u vt v with
        globalQuota := some
          (Reverse.Cpu.quotaOf (toQint32 u.cpuLimitValue.toNat) 100 v.defaultPeriod.toNat) }⟩) := by
    rw [Reverse.Cpu.tuned, reverse_setUnits hv]
    simp only [Reverse.Cpu.setLimit, if_neg hset.symm, hv, if_pos hpercents, hglobal, if_true]
    rfl
  rw [tuneBack_iff_limit ⟨_, hwrite, rfl⟩ (by rw [htune]), read_none (by rw [htune])]

/-- Without it, the quota of one processor is read. -/
theorem tuneBack_shared (hv : vt.vCpuInfo = some v) (hpercents : u.cpuLimitType = .percents)
    (hzero : u.cpuLimitValue ≠ 0) (hglobal : vt.isGlobalCpuLimit = false)
    (hpos : 0 < v.defaultPeriod.toNat) (hperiod : v.defaultPeriod.toNat < 2 ^ 31) :
    TuneBack u vt prototype ↔ UnitsBack u.cpuUnits prototype.cpuUnits ∧
      LimitBack u.cpuLimitValue.toNat (u.number * u.sockets).toNat v.defaultPeriod.toNat := by
  have hset := toQint32_ne_zero hzero
  have htune : unitsTune u vt v =
      ⟨sharesOf u, none, none, some v.defaultPeriod.toNat, some (-1)⟩ := by
    rw [unitsTune, hglobal]
    rfl
  by_cases hn : (u.number * u.sockets).toNat = 0
  · refine iff_of_false ?_ ?_
    · rintro ⟨c, d, r, hc, -⟩
      rw [Reverse.Cpu.tuned, reverse_setUnits hv] at hc
      simp [Reverse.Cpu.setLimit, hset.symm, hv, hpercents, hglobal, hn] at hc
    · rintro ⟨-, h | ⟨h, -⟩⟩
      · exact hzero (UInt32.toNat_inj.mp h)
      · omega
  have hwrite : Reverse.Cpu.tuned u vt = .ok (.success, ⟨u, vt, some
      { unitsTune u vt v with
        quota := some (Reverse.Cpu.quotaOf (toQint32 u.cpuLimitValue.toNat) 100
          v.defaultPeriod.toNat / (u.number * u.sockets).toNat : Nat) }⟩) := by
    rw [Reverse.Cpu.tuned, reverse_setUnits hv]
    simp only [Reverse.Cpu.setLimit, if_neg hset.symm, hv, if_pos hpercents, hglobal, if_neg hn]
    rfl
  rw [tuneBack_iff_limit ⟨_, hwrite, rfl⟩ (by rw [htune]), read_some rfl (by rw [htune]),
    limitOf_quotaOf_iff hzero hpos hperiod hn]

/-- The units and the limit come back just under the two conditions. The period is positive as the
reader holds it. -/
theorem tuneBack_iff (hv : vt.vCpuInfo = some v) (hpercents : u.cpuLimitType = .percents)
    (hpositive : 0 < toQint32 v.defaultPeriod.toNat) :
    TuneBack u vt prototype ↔
      UnitsBack u.cpuUnits prototype.cpuUnits ∧ LimitsBack u vt v prototype := by
  have hperiod := lt_of_toQint32_pos v.defaultPeriod.toNat_lt hpositive
  have hpos : 0 < v.defaultPeriod.toNat := by
    rw [toQint32_small hperiod] at hpositive
    omega
  by_cases hzero : u.cpuLimitValue = 0
  · exact tuneBack_unlimited hv hzero
  cases hglobal : vt.isGlobalCpuLimit with
  | true =>
    rw [LimitsBack, if_pos hglobal]
    exact tuneBack_global hv hpercents hzero hglobal
  | false =>
    rw [LimitsBack, hglobal, if_neg Bool.false_ne_true]
    exact tuneBack_shared hv hpercents hzero hglobal hpos hperiod

/-- A processor with a limit of one half. -/
def halfOf (number : UInt32) : CVmCpu :=
  ⟨number, 1, 1000, 0, .percents, 50, "", "", 1, false⟩

/-- One processor, with the period of the host. -/
theorem tuneBack_one : TuneBack (halfOf 1) ⟨some ⟨100000, 2400⟩, false⟩ default := by
  refine (tuneBack_iff (v := ⟨100000, 2400⟩) rfl rfl (by decide)).mpr ⟨⟨⟨8, rfl⟩, by decide⟩, ?_⟩
  exact .inr ⟨rfl, by decide, by decide⟩

/-- With two processors the limit is divided and comes back as half of it. -/
theorem tuneBack_two : ∃ u vt v prototype, vt.vCpuInfo = some v ∧ u.cpuLimitType = .percents ∧
    0 < (u.number * u.sockets).toNat ∧ 0 < toQint32 v.defaultPeriod.toNat ∧
    ¬ TuneBack u vt prototype := by
  refine ⟨halfOf 2, ⟨some ⟨100000, 2400⟩, false⟩, ⟨100000, 2400⟩, default, rfl, rfl, by decide,
    by decide, ?_⟩
  intro h
  have hlimit := ((tuneBack_shared rfl rfl (by decide) rfl (by decide) (by decide)).mp h).2
  revert hlimit
  rintro (h | ⟨h, -⟩) <;> revert h <;> decide

end DispService.Transponster
