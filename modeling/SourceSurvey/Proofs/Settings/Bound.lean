import SourceSurvey.Proofs.Number.Order
import SourceSurvey.Proofs.Package.Verification
import SourceSurvey.Proofs.Settings.File
import SourceSurvey.Settings

/-!
# Bounds of settings

Settings that are out of bounds are refused, and a timeout that is too long is cut. Main statement:
every number among the settings that a mapping gives is within its bounds, unless the mapping has
not-a-number for it, and so is the time that each command may take.
-/

namespace SourceSurvey.Settings

variable {entries : List (Value × Value)} {key : String} {v default : Value} {q : Quantity}
  {s : Settings}

/-! ## Numbers that are checked -/

theorem ofValue?_eq_nan_iff : Quantity.ofValue? v = some (.real .nan) ↔ v = .float .nan := by
  cases v <;> simp [Quantity.ofValue?]

/-- A setting is not-a-number only if the mapping has this for it. -/
theorem eq_nan_iff (h : Quantity.ofValue? ((Value.entry? key entries).getD default) = some q)
    (hdefault : default ≠ .float .nan) :
    q = .real .nan ↔ Value.entry? key entries = some (.float .nan) := by
  rw [← Option.some_inj, ← h, ofValue?_eq_nan_iff]
  cases Value.entry? key entries with
  | none => exact iff_of_false hdefault nofun
  | some below => exact Option.some_inj.symm

/-- A timeout that is positive is within bounds once it is cut, unless it is not-a-number. -/
theorem isIn_capped_iff (h : q.le 0 = false) :
    (capped q).IsIn (Set.Ioc 0 30) ↔ q ≠ .real .nan := by
  rw [Ne, ← Quantity.value?_eq_none_iff]
  unfold capped
  cases hv : q.value? with
  | none =>
    cases Quantity.value?_eq_none_iff.mp hv
    refine iff_of_false ?_ (not_not_intro rfl)
    rintro ⟨v, -, h⟩
    cases h
  | some v =>
    refine iff_of_true ?_ nofun
    split
    · exact ⟨30, ⟨by norm_num, le_rfl⟩, Binary64.value?_ofNat_thirty⟩
    · next hgt =>
      have hzero : (((0 : Int) : ℝ) : EReal) = 0 := by norm_num
      have hthirty : (((maxTimeout : Int) : ℝ) : EReal) = 30 := by
        rw [show maxTimeout = 30 from rfl, Int.cast_ofNat]
        rfl
      refine ⟨v, ⟨not_le.mp fun hle => ?_, not_lt.mp fun hlt => ?_⟩, hv⟩
      · rw [← hzero, ← Quantity.le_iff hv, h] at hle
        cases hle
      · rw [← hthirty, ← Quantity.gt_iff hv] at hlt
        exact hgt hlt

/-! ## Settings of a mapping -/

/-- The numbers among the settings are those that a mapping has, or else the defaults, with the
timeout cut. -/
theorem checked_of_ofKnown (h : ofKnown entries = .ok s) :
    checked ((Value.entry? "manifest_search_depth" entries).getD (.int 5)) (·.lt 1)
      .searchTooShallow = .ok s.manifestSearchDepth ∧
    (∃ timeout, checked ((Value.entry? "verification_timeout" entries).getD (.float (.ofNat 10)))
      (·.le 0) .timeoutNotPositive = .ok timeout ∧ s.verificationTimeout = capped timeout) ∧
    checked ((Value.entry? "external_usage_max_files" entries).getD (.int 50)) (·.lt 0)
      .negativeFileCap = .ok s.externalUsageMaxFiles ∧
    checked ((Value.entry? "external_usage_workers" entries).getD (.int 4)) (·.lt 1)
      .noWorkers = .ok s.externalUsageWorkers := by
  obtain ⟨depth, hdepth, h⟩ := bind_eq_ok_iff.mp h
  obtain ⟨timeout, htimeout, h⟩ := bind_eq_ok_iff.mp h
  obtain ⟨_, hcut, h⟩ := bind_eq_ok_iff.mp h
  obtain ⟨files, hfiles, h⟩ := bind_eq_ok_iff.mp h
  obtain ⟨workers, hworkers, h⟩ := bind_eq_ok_iff.mp h
  dsimp only at h
  split at h
  · cases h
    exact ⟨hdepth, ⟨timeout, htimeout, (cut_eq_ok_iff.mp hcut).2⟩, hfiles, hworkers⟩
  · cases h

theorem ofKnown_of_ofMapping (h : ofMapping entries = .ok s) : ofKnown entries = .ok s := by
  unfold ofMapping at h
  split at h
  · exact h
  · split at h <;> cases h

/-- Settings are within their bounds, and commands are waited for no longer than that, unless a
mapping has not-a-number for one of them: no comparison with a bound holds of it. -/
theorem isIn_bounds_iff (h : ofMapping entries = .ok s) :
    (s.manifestSearchDepth.IsIn (Set.Ici 1) ↔
      Value.entry? "manifest_search_depth" entries ≠ some (.float .nan)) ∧
    (s.verificationTimeout.IsIn (Set.Ioc 0 30) ↔
      Value.entry? "verification_timeout" entries ≠ some (.float .nan)) ∧
    (s.externalUsageMaxFiles.IsIn (Set.Ici 0) ↔
      Value.entry? "external_usage_max_files" entries ≠ some (.float .nan)) ∧
    (s.externalUsageWorkers.IsIn (Set.Ici 1) ↔
      Value.entry? "external_usage_workers" entries ≠ some (.float .nan)) ∧
    ∀ readers ws tools imports file tag issues commands,
      Dependency.check readers ws s tools imports file tag = .ok (issues, commands) →
      ∀ c ∈ commands, (c.timeout.IsIn (Set.Ioc 0 30) ↔
        Value.entry? "verification_timeout" entries ≠ some (.float .nan)) := by
  obtain ⟨hdepth, ⟨timeout, htimeout, hcapped⟩, hfiles, hworkers⟩ :=
    checked_of_ofKnown (ofKnown_of_ofMapping h)
  rw [checked_eq_ok_iff] at hdepth htimeout hfiles hworkers
  have hbound : s.verificationTimeout.IsIn (Set.Ioc 0 30) ↔
      Value.entry? "verification_timeout" entries ≠ some (.float .nan) := by
    rw [hcapped, isIn_capped_iff htimeout.2]
    exact (eq_nan_iff htimeout.1 fun h => absurd (Value.float.inj h) (by decide)).not
  refine ⟨?_, hbound, ?_, ?_, ?_⟩
  · rw [Ne, ← eq_nan_iff hdepth.1 nofun]
    exact Quantity.isIn_Ici_iff (by norm_num) hdepth.2
  · rw [Ne, ← eq_nan_iff hfiles.1 nofun]
    exact Quantity.isIn_Ici_iff (by norm_num) hfiles.2
  · rw [Ne, ← eq_nan_iff hworkers.1 nofun]
    exact Quantity.isIn_Ici_iff (by norm_num) hworkers.2
  · intro readers ws tools imports file tag issues commands hcheck c hc
    rw [Dependency.timeout_of_mem_check hcheck hc]
    exact hbound

/-- A timeout of a minute is cut. -/
theorem isIn_bounds_minute :
    ofMapping [(.string "verification_timeout", .int 60)] =
      .ok { verificationTimeout := .real (.ofNat 30) } ∧
    ({ verificationTimeout := .real (.ofNat 30) } : Settings).verificationTimeout.IsIn
      (Set.Ioc 0 30) :=
  have h : ofMapping [(.string "verification_timeout", .int 60)] =
      .ok { verificationTimeout := .real (.ofNat 30) } := rfl
  ⟨h, (isIn_bounds_iff h).2.1.mpr nofun⟩

/-- A timeout that is no number is taken as it is. -/
theorem not_isIn_bounds_nan :
    ofMapping [(.string "verification_timeout", .float .nan)] =
      .ok { verificationTimeout := .real .nan } ∧
    ¬ ({ verificationTimeout := .real .nan } : Settings).verificationTimeout.IsIn
      (Set.Ioc 0 30) := by
  refine ⟨rfl, ?_⟩
  rintro ⟨v, -, h⟩
  cases h

end SourceSurvey.Settings
