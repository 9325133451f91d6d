import DispService.Transponster.CpuTune

/-! Which domain XML the reader of the processor takes without reading an absent part, dividing by
zero or an overflow, and with a limit that is computed from the period there is. -/
namespace DispService.Transponster.Direct.Cpu

variable {c : Cpu} {vcpu : Option Xml.Vcpu} {tune : Option Xml.Cputune}
  {numa : Option Xml.Numatune} {prototype : CVmCpu} {vt : VtInfo} {t : Xml.Cputune}

/-- The values that a domain XML is accepted with. -/
structure Parsed (t : Xml.Cputune) : Prop where
  period : ∀ p ∈ t.period, 1000 ≤ p ∧ p ≤ 1000000
  quota : ∀ q ∈ t.quota, -1 ≤ q ∧ q ≤ 18446744073709551

/-- The period of the domain XML, or else the default one. -/
def availablePeriod (c : Cpu) (t : Xml.Cputune) : Option Int :=
  (t.period.map fun p : Nat => toQint32 p).or c.period

/-- No step fails, and the limit is computed from the period there is. -/
structure Safe (c : Cpu) : Prop where
  mask : ∃ o, c.setMask = .ok o
  node : ∃ o, c.setNode = .ok o
  units : ∃ o, c.setUnits = .ok o
  limit : ∃ o, c.setLimit = .ok o
  number : ∃ o, c.setNumber = .ok o
  computed : ∀ r ∈ c.result, ∀ t ∈ c.tune, ∀ quota ∈ t.quota, ∀ p ∈ c.availablePeriod t,
    ∃ limit, limitOf (toQint32 quota) p = .ok limit ∧
      c.setLimit = .ok (.success, { c with result := some { r with cpuLimit := limit } })

/-- A tuning of the nodes has its memory with a mode, the shares are not too many, and a quota has
its period beside it and is not too large, as a number of 32 bits. -/
structure WellGiven (tune : Option Xml.Cputune) (numa : Option Xml.Numatune) : Prop where
  node : ∀ n ∈ numa, ∃ m ∈ n.memory, m.mode.isSome = true
  units : ∀ t ∈ tune, ∀ shares ∈ t.shares, shares.toNat * 1000 < 2 ^ 32
  period : ∀ t ∈ tune, t.quota.isSome = true → t.period.isSome = true
  limit : ∀ t ∈ tune, ∀ quota ∈ t.quota, toQint32 quota = -1 ∨
    -2 ^ 31 ≤ toQint32 quota * 100 ∧ toQint32 quota * 100 < 2 ^ 31

theorem setMask_ok (c : Cpu) : ∃ o, c.setMask = .ok o := by
  unfold setMask
  split
  · exact ⟨_, rfl⟩
  split
  · exact ⟨_, rfl⟩
  split <;> exact ⟨_, rfl⟩

theorem setNumber_ok (c : Cpu) : ∃ o, c.setNumber = .ok o := by
  unfold setNumber
  split
  · exact ⟨_, rfl⟩
  split <;> exact ⟨_, rfl⟩

theorem setNode_ok_iff {r : CVmCpu} (hr : c.result = some r) :
    (∃ o, c.setNode = .ok o) ↔ ∀ n ∈ c.numa, ∃ m ∈ n.memory, m.mode.isSome = true := by
  unfold setNode
  simp only [hr]
  obtain _ | ⟨_ | ⟨_ | mode, memory⟩⟩ := c.numa
  · simp
  · simp
  · simp
  · simp only [Option.mem_some_iff, forall_eq', exists_eq_left', Option.isSome_some, iff_true]
    split <;> exact ⟨_, rfl⟩

theorem setUnits_ok_iff {r : CVmCpu} (hr : c.result = some r) :
    (∃ o, c.setUnits = .ok o) ↔
      ∀ t ∈ c.tune, ∀ shares ∈ t.shares, shares.toNat * 1000 < 2 ^ 32 := by
  unfold setUnits
  simp only [hr]
  cases htune : c.tune with
  | none => simp
  | some t =>
    cases hshares : t.shares with
    | none => simp [hshares]
    | some shares =>
      simp only [Option.bind_some, hshares, Option.mem_some_iff, forall_eq']
      split
      · next h => exact iff_of_true ⟨_, rfl⟩ h
      · next h => exact iff_of_false (by simp) h

/-- With a period that is accepted, the limit is computed unless the product is too large. -/
theorem limitOf_ok_iff {q : Int} {p : Nat} (hp : 1000 ≤ p ∧ p ≤ 1000000) :
    (∃ limit, limitOf q (toQint32 p) = .ok limit) ↔
      q = -1 ∨ -2 ^ 31 ≤ q * 100 ∧ q * 100 < 2 ^ 31 := by
  have hperiod : toQint32 p = p := by
    unfold toQint32
    apply Int.bmod_eq_of_le <;> omega
  rw [hperiod, limitOf]
  by_cases hq : q = -1
  · rw [if_pos hq]
    exact iff_of_true ⟨_, rfl⟩ (.inl hq)
  rw [if_neg hq]
  by_cases hwide : q * 100 < -2 ^ 31 ∨ 2 ^ 31 ≤ q * 100
  · rw [if_pos hwide]
    exact iff_of_false (by simp) (by omega)
  · rw [if_neg hwide, if_neg (by omega), if_neg (by omega)]
    exact iff_of_true ⟨_, rfl⟩ (by omega)

/-- Without a period in the domain XML, nothing is ever computed. -/
theorem setLimit_absent {r : CVmCpu} {quota : Int} (hr : c.result = some r) (ht : c.tune = some t)
    (hq : t.quota = some quota) (hp : t.period = none) :
    c.setLimit = match c.period with
      | some _ => .ok (.success, c)
      | none => .error .absent := by
  cases hdefault : c.period with
  | none => simp only [setLimit, hr, ht, hq, hp, hdefault]
  | some period => simp only [setLimit, hr, ht, hq, hp, hdefault]

theorem limit_ne (limit : UInt32) : (if limit = 0 then 1 else 0) ≠ limit := by
  split
  · next h => rw [h]; decide
  · next h => exact fun heq => h heq.symm

/-- A quota without a period is not computed with. -/
theorem period_of_safe (safe : ∀ prototype, Safe (new vcpu tune numa prototype vt))
    (htune : tune = some t) (hquota : t.quota.isSome = true) : t.period.isSome = true := by
  obtain ⟨quota, hquota⟩ := Option.isSome_iff_exists.mp hquota
  by_contra hnone
  have hperiod : t.period = none := by simpa using hnone
  subst htune
  have hset := fun prototype => setLimit_absent (c := new vcpu (some t) numa prototype vt)
    (r := prototype) rfl rfl hquota hperiod
  have hcomputed := fun prototype =>
    (safe prototype).computed prototype rfl t rfl quota hquota
  cases hdefault : vt.vCpuInfo with
  | none =>
    obtain ⟨o, ho⟩ := (safe default).limit
    rw [hset] at ho
    simp [new, hdefault] at ho
  | some v =>
    have havailable : ∀ prototype, (new vcpu (some t) numa prototype vt).availablePeriod t =
        some (toQint32 v.defaultPeriod.toNat) := by
      intro prototype
      rw [availablePeriod, hperiod, Option.map_none, Option.none_or, new, hdefault,
        Option.map_some]
    obtain ⟨limit, hlimit, -⟩ := hcomputed default _ (havailable default)
    obtain ⟨other, hother⟩ : ∃ other, other ≠ limit := ⟨_, limit_ne limit⟩
    obtain ⟨limit', hlimit', heq⟩ := hcomputed { (default : CVmCpu) with cpuLimit := other } _
      (havailable _)
    cases hlimit.symm.trans hlimit'
    rw [hset] at heq
    simp only [new, hdefault, Option.map_some, Except.ok.injEq, Prod.mk.injEq, true_and,
      Cpu.mk.injEq, Option.some.injEq, CVmCpu.mk.injEq, and_true] at heq
    exact hother heq

/-- No step fails and the limit is computed, whatever the configuration was before, just for the
domain XML that is well given. -/
theorem safe_iff (vcpu : Option Xml.Vcpu) (numa : Option Xml.Numatune) (vt : VtInfo)
    (parsed : ∀ t ∈ tune, Parsed t) :
    (∀ prototype, Safe (new vcpu tune numa prototype vt)) ↔ WellGiven tune numa := by
  constructor
  · intro safe
    refine ⟨?_, ?_, ?_, ?_⟩
    · exact (setNode_ok_iff (c := new vcpu tune numa default vt) rfl).mp (safe default).node
    · exact (setUnits_ok_iff (c := new vcpu tune numa default vt) rfl).mp (safe default).units
    · intro t ht hquota
      exact period_of_safe safe ht hquota
    · intro t ht quota hquota
      obtain ⟨p, hp⟩ := Option.isSome_iff_exists.mp
        (period_of_safe safe ht (Option.isSome_iff_exists.mpr ⟨quota, hquota⟩))
      obtain ⟨limit, hlimit, -⟩ := (safe default).computed default rfl t ht quota hquota
        (toQint32 p) (by simp [availablePeriod, hp])
      exact (limitOf_ok_iff ((parsed t ht).period p hp)).mp ⟨limit, hlimit⟩
  · intro given prototype
    have hcomputed : ∀ t ∈ tune, ∀ quota ∈ t.quota, ∃ p limit, t.period = some p ∧
        limitOf (toQint32 quota) (toQint32 p) = .ok limit ∧
        (new vcpu tune numa prototype vt).setLimit =
          .ok (.success, { new vcpu tune numa prototype vt with
            result := some { prototype with cpuLimit := limit } }) := by
      intro t ht quota hquota
      obtain ⟨p, hp⟩ := Option.isSome_iff_exists.mp
        (given.period t ht (Option.isSome_iff_exists.mpr ⟨quota, hquota⟩))
      obtain ⟨limit, hlimit⟩ := (limitOf_ok_iff ((parsed t ht).period p hp)).mpr
        (given.limit t ht quota hquota)
      refine ⟨p, limit, hp, hlimit, ?_⟩
      rw [setLimit_period (r := prototype) rfl ht hquota hp, hlimit]
      rfl
    refine ⟨setMask_ok _, (setNode_ok_iff rfl).mpr given.node, (setUnits_ok_iff rfl).mpr given.units,
      ?_, setNumber_ok _, ?_⟩
    · by_cases hquota : ∃ t ∈ tune, t.quota.isSome = true
      · obtain ⟨t, ht, hquota⟩ := hquota
        obtain ⟨quota, hquota⟩ := Option.isSome_iff_exists.mp hquota
        obtain ⟨p, limit, -, -, hset⟩ := hcomputed t ht quota hquota
        exact ⟨_, hset⟩
      · refine ⟨_, setLimit_none ?_⟩
        by_contra hsome
        obtain ⟨quota, hsome⟩ := Option.ne_none_iff_exists'.mp hsome
        obtain ⟨t, ht, hquota'⟩ := Option.bind_eq_some_iff.mp hsome
        exact hquota ⟨t, ht, Option.isSome_iff_exists.mpr ⟨quota, hquota'⟩⟩
    · rintro _ ⟨⟩ t ht quota hquota p hp
      obtain ⟨p', limit, hperiod, hlimit, hset⟩ := hcomputed t ht quota hquota
      simp only [availablePeriod, hperiod, Option.map_some, Option.some_or, Option.mem_some_iff]
        at hp
      rw [← hp]
      exact ⟨limit, hlimit, hset⟩

/-- Half a processor, with the period of the host. -/
theorem safe_iff_half :
    (∀ prototype, Safe (new none (some ⟨some 1024, none, none, some 100000, some 50000⟩) none
      prototype ⟨some ⟨100000, 2400⟩, false⟩)) ↔
      WellGiven (some ⟨some 1024, none, none, some 100000, some 50000⟩) none := by
  apply safe_iff
  rintro _ ⟨⟩
  exact ⟨by simp, by simp⟩

/-- A quota without a period, on a host of which nothing is known. -/
theorem setLimit_reads_absent : ∃ vcpu tune numa vt, (∀ t ∈ tune, Parsed t) ∧
    ¬ ∀ prototype, Safe (new vcpu tune numa prototype vt) := by
  refine ⟨none, some ⟨none, none, none, none, some 50000⟩, none, ⟨none, false⟩, ?_, ?_⟩
  · rintro _ ⟨⟩
    exact ⟨by simp, by simp⟩
  · intro safe
    have hperiod := period_of_safe safe rfl rfl
    cases hperiod

end DispService.Transponster.Direct.Cpu
