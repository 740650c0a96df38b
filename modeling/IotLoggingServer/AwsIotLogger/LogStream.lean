import IotLoggingServer.AwsIotLogger.Merge

set_option autoImplicit false

/-! # Log streams by day (`get_log_stream_name`)

The name of a log stream begins with the UTC date of the upload. A date takes ten characters, so the
rest of the name can be read off it, and no two days and no two sources share a stream
(`target_inj`). -/

namespace IotLoggingServer

/-! ## Dates -/

/-- `n` in `width` decimal digits. -/
def decimal : ℕ → ℕ → Str
  | 0, _ => []
  | width + 1, n => decimal width (n / 10) ++ [Nat.digitChar (n % 10)]

@[simp] theorem decimal_length (width n : ℕ) : (decimal width n).length = width := by
  induction width generalizing n with
  | zero => rfl
  | succ width ih => simp [decimal, ih]

theorem digitChar_inj {m n : ℕ} (hm : m < 10) (hn : n < 10)
    (h : Nat.digitChar m = Nat.digitChar n) : m = n := by
  have hall : ∀ m n : Fin 10, Nat.digitChar m = Nat.digitChar n → m = n := by decide
  exact congrArg Fin.val (hall ⟨m, hm⟩ ⟨n, hn⟩ h)

theorem decimal_inj {width : ℕ} {m n : ℕ} (hm : m < 10 ^ width) (hn : n < 10 ^ width)
    (h : decimal width m = decimal width n) : m = n := by
  induction width generalizing m n with
  | zero => omega
  | succ width ih =>
      rw [pow_succ] at hm hn
      obtain ⟨hrest, hlast⟩ := List.append_inj' h rfl
      have hdigit := digitChar_inj (Nat.mod_lt m (by decide)) (Nat.mod_lt n (by decide))
        (List.singleton_inj.1 hlast)
      have hquotient := ih (Nat.div_lt_of_lt_mul (by omega)) (Nat.div_lt_of_lt_mul (by omega)) hrest
      omega

/-- A date of `datetime.now(timezone.utc)`. -/
structure UtcDate where
  year : ℕ
  month : ℕ
  day : ℕ
  year_le : 1970 ≤ year ∧ year ≤ 9999
  month_le : 1 ≤ month ∧ month ≤ 12
  day_le : 1 ≤ day ∧ day ≤ 31

/-- The date as `%Y/%m/%d`. -/
def UtcDate.strftime (self : UtcDate) : Str :=
  decimal 4 self.year ++ "/".toList ++ decimal 2 self.month ++ "/".toList ++ decimal 2 self.day

@[simp] theorem UtcDate.strftime_length (self : UtcDate) : self.strftime.length = 10 := by
  simp [UtcDate.strftime]

theorem UtcDate.strftime_inj {date date' : UtcDate} (h : date.strftime = date'.strftime) :
    date = date' := by
  obtain ⟨hrest, hday⟩ := List.append_inj' h (by simp)
  obtain ⟨hrest, -⟩ := List.append_inj' hrest rfl
  obtain ⟨hrest, hmonth⟩ := List.append_inj' hrest (by simp)
  obtain ⟨hyear, -⟩ := List.append_inj' hrest rfl
  have hyears := decimal_inj (by have := date.year_le; omega) (by have := date'.year_le; omega)
    hyear
  have hmonths := decimal_inj (by have := date.month_le; omega) (by have := date'.month_le; omega)
    hmonth
  have hdays := decimal_inj (by have := date.day_le; omega) (by have := date'.day_le; omega) hday
  cases date
  cases date'
  simp_all

/-! ## Where the logs of a source go -/

/-- The log group and the log stream of a request. -/
abbrev Target := Str × Str

/-- Where the logs of a source go on a day. -/
def AWSIoTLogger.target (self : AWSIoTLogger) (today : UtcDate) (source : Source) : Target :=
  (self.logGroupName source.1,
    getLogStreamName today.strftime self.sessionConfig.thingName source.2)

def PutCall.target (self : PutCall) : Target := (self.logGroupName, self.logStreamName)

/-- The batch of a call, as the service sees it. -/
def PutCall.targeted (self : PutCall) : Target × List LogMessage := (self.target, self.logs)

/-- A target without the date. -/
def Target.undated (self : Target) : Target := (self.1, self.2.drop 10)

/-- The target of a source, without the date. -/
def AWSIoTLogger.undatedTarget (self : AWSIoTLogger) (source : Source) : Target :=
  (self.logGroupName source.1,
    "/".toList ++ self.sessionConfig.thingName ++ "/".toList ++ source.2)

variable (self : AWSIoTLogger)

theorem AWSIoTLogger.target_undated (today : UtcDate) (source : Source) :
    (self.target today source).undated = self.undatedTarget source := by
  have hname : getLogStreamName today.strftime self.sessionConfig.thingName source.2 =
      today.strftime ++ ("/".toList ++ self.sessionConfig.thingName ++ "/".toList ++ source.2) := by
    simp [getLogStreamName]
  rw [AWSIoTLogger.target, Target.undated, hname, List.drop_left' today.strftime_length]
  rfl

theorem AWSIoTLogger.logGroupName_inj {type type' : LogGroupType}
    (h : self.logGroupName type = self.logGroupName type') : type = type' := by
  cases type' with
  | metrics => exact (self.logGroupName_metrics_iff type).1 (by rw [h]; rfl)
  | log => exact (self.logGroupName_logs_iff type).1 (by rw [h]; rfl)

theorem AWSIoTLogger.undatedTarget_inj {source source' : Source}
    (h : self.undatedTarget source = self.undatedTarget source') : source = source' := by
  obtain ⟨hgroup, hstream⟩ := Prod.mk.inj h
  exact Prod.ext (self.logGroupName_inj hgroup) (List.append_cancel_left hstream)

/-- **A stream belongs to one source and one day.** -/
theorem AWSIoTLogger.target_inj {today today' : UtcDate} {source source' : Source} :
    self.target today source = self.target today' source' ↔ today = today' ∧ source = source' := by
  constructor
  · intro h
    have hsource : source = source' := by
      apply self.undatedTarget_inj
      rw [← self.target_undated today, h, self.target_undated]
    subst hsource
    refine ⟨UtcDate.strftime_inj ?_, rfl⟩
    have hstream := congrArg Prod.snd h
    simp only [AWSIoTLogger.target, getLogStreamName, List.append_assoc] at hstream
    exact List.append_cancel_right hstream
  · rintro ⟨rfl, rfl⟩
    rfl

end IotLoggingServer
