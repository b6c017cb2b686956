import BorderProxy.Proofs.Jitter.Source

/-! When packets are due. Whatever the estimator has heard and whatever its estimate, a time that it gives lies
between the arrival of the packet and twice the target later, and is the arrival where that end of the window
is not representable. While learning begins, and for repetitions of the first packet, there is always a time,
the target after the arrival. Later there is none exactly where the ideal arrival is not representable. -/

namespace BorderProxy.Jitter

/-! Ideal arrivals. -/

theorem roundedQuotient_le (numerator denominator : Nat) :
    roundedQuotient numerator denominator ≤ numerator + 1 := by
  have hle := Nat.div_le_self numerator denominator
  have hodd := Nat.mod_lt (numerator / denominator) Nat.two_pos
  unfold roundedQuotient
  dsimp only
  split
  · omega
  · split <;> omega

/-- The bits of 2^64 are the first ones of a number of seconds that is too large. -/
theorem nanosOfBits_le_longest_iff (bits : Nat) :
    nanosOfBits bits ≤ Duration.longest ↔ bits < 1087 <<< 52 := by
  have hbits : bits < 1087 <<< 52 ↔ bits >>> 52 < 1087 := by
    rw [Nat.shiftRight_eq_div_pow, Nat.div_lt_iff_lt_mul (Nat.two_pow_pos 52)]
    rfl
  have hfraction : bits % (1 <<< 52) < 2 ^ 52 := Nat.mod_lt _ (Nat.two_pow_pos 52)
  rw [hbits]
  unfold nanosOfBits
  generalize bits >>> 52 = exponent
  generalize bits % (1 <<< 52) = fraction at hfraction
  simp only [Nat.shiftLeft_eq, Nat.one_mul, Duration.longest, Duration.perSecond]
  by_cases hsmall : exponent < 1087
  · refine iff_of_true ?_ hsmall
    have hmantissa : (if exponent = 0 then fraction else fraction + 2 ^ 52) < 2 ^ 53 := by
      split <;> omega
    generalize (if exponent = 0 then fraction else fraction + 2 ^ 52) = mantissa at hmantissa
    split
    · have hpower : 2 ^ (exponent - 1075) ≤ 2 ^ 11 := Nat.pow_le_pow_right Nat.two_pos (by omega)
      calc mantissa * 1000000000 * 2 ^ (exponent - 1075)
          ≤ mantissa * 1000000000 * 2 ^ 11 := Nat.mul_le_mul_left _ hpower
        _ ≤ 2 ^ 64 * 1000000000 - 1 := by omega
    · exact Nat.le_trans (roundedQuotient_le _ _) (by omega)
  · refine iff_of_false (Nat.not_le.mpr ?_) hsmall
    have hnormal : exponent ≠ 0 := by omega
    have hlarge : 1075 ≤ exponent := by omega
    rw [if_neg hnormal, if_pos hlarge]
    have hpower : 2 ^ 12 ≤ 2 ^ (exponent - 1075) := Nat.pow_le_pow_right Nat.two_pos (by omega)
    calc 2 ^ 64 * 1000000000 - 1 < 2 ^ 52 * 1000000000 * 2 ^ 12 := by omega
      _ ≤ (fraction + 2 ^ 52) * 1000000000 * 2 ^ (exponent - 1075) :=
        Nat.mul_le_mul (by omega) hpower

example : nanosOfBits (1023 <<< 52) = Duration.seconds 1 := by decide

/-- A number of seconds is not representable exactly if it is 2^64 or more, or infinite. -/
theorem ofSeconds?_eq_none_iff (seconds : Float) :
    Duration.ofSeconds? seconds = none ↔
      1087 <<< 52 ≤ seconds.toBits.toNat ∧ seconds.toBits.toNat ≤ 2047 <<< 52 := by
  unfold Duration.ofSeconds?
  dsimp only
  split
  · rename_i hnumber
    exact iff_of_false (Option.some_ne_none 0) fun h => Nat.not_le.mpr hnumber h.2
  · rename_i hnumber
    split
    · rename_i hfits
      have hsmall := (nanosOfBits_le_longest_iff _).mp hfits
      exact iff_of_false (Option.some_ne_none _) fun h => Nat.not_le.mpr hsmall h.1
    · rename_i hlong
      rw [nanosOfBits_le_longest_iff, Nat.not_lt] at hlong
      exact iff_of_true rfl ⟨hlong, Nat.not_lt.mp hnumber⟩

/-- There is no ideal arrival exactly if the time from the first packet to it is not representable, or the
moment that long after the first packet. -/
theorem idealArrival?_eq_none_iff (start : Instant) (tickLength : Float) (ticks : Nat) :
    idealArrival? start tickLength ticks = none ↔
      ∀ offset, Duration.ofSeconds? (tickLength * Float.ofNat ticks) = some offset →
        Instant.latest < start + offset := by
  unfold idealArrival?
  rw [Option.bind_eq_none_iff]
  refine forall₂_congr fun offset _ => ?_
  unfold Instant.after?
  split
  · rename_i hle
    exact iff_of_false (Option.some_ne_none _) (Int.not_lt.mpr hle)
  · rename_i hlate
    exact iff_of_true rfl (Int.not_le.mp hlate)

/-! The window of a packet. -/

/-- Twice the target, and that length of time after an arrival, are representable. -/
def HasWindow (target : Duration) (now : Instant) : Prop :=
  2 * target ≤ Duration.longest ∧ now + (2 * target : Nat) ≤ Instant.latest

theorem windowEnd?_of_hasWindow {target : Duration} {now : Instant} (h : HasWindow target now) :
    windowEnd? target now = some (now + (2 * target : Nat)) := by
  simp only [windowEnd?, Duration.double?, h.1, if_true, Option.bind_some, Instant.after?, h.2]

theorem windowEnd?_of_not_hasWindow {target : Duration} {now : Instant} (h : ¬HasWindow target now) :
    windowEnd? target now = none := by
  unfold windowEnd? Duration.double?
  by_cases hdouble : 2 * target ≤ Duration.longest
  · have hlate : ¬ now + (2 * target : Nat) ≤ Instant.latest := fun hlate => h ⟨hdouble, hlate⟩
    simp only [hdouble, if_true, Option.bind_some, Instant.after?, if_neg hlate]
  · rw [if_neg hdouble, Option.bind_none]

theorem dueWithin_of_not_hasWindow {target : Duration} {now : Instant} (h : ¬HasWindow target now)
    (ideal : Instant) : dueWithin target ideal now = now := by
  rw [dueWithin, windowEnd?_of_not_hasWindow h]

/-- Wherever the ideal arrival lies, a packet is due in its window. -/
theorem dueWithin_mem (target : Duration) (ideal now : Instant) :
    now ≤ dueWithin target ideal now ∧ dueWithin target ideal now ≤ now + (2 * target : Nat) := by
  have hwindow : now ≤ now + (2 * target : Nat) := Int.le_add_of_nonneg_right (Int.natCast_nonneg _)
  by_cases h : HasWindow target now
  · rw [dueWithin, windowEnd?_of_hasWindow h]
    dsimp only
    generalize (Instant.after? ideal target).getD (now + (2 * target : Nat)) = due
    split
    · exact ⟨Int.le_refl now, hwindow⟩
    · rename_i hearly
      split
      · exact ⟨hwindow, Int.le_refl _⟩
      · rename_i hlate
        exact ⟨Int.not_lt.mp hearly, Int.not_lt.mp hlate⟩
  · rw [dueWithin_of_not_hasWindow h]
    exact ⟨Int.le_refl now, hwindow⟩

/-- A packet that is on time is due the target after its arrival. -/
theorem dueWithin_now {target : Duration} {now : Instant} (h : HasWindow target now) :
    dueWithin target now now = now + target := by
  have hfirst : now ≤ now + target := Int.le_add_of_nonneg_right (Int.natCast_nonneg _)
  have hlast : now + target ≤ now + (2 * target : Nat) :=
    Int.add_le_add_left (Int.ofNat_le.mpr (Nat.le_mul_of_pos_left target Nat.zero_lt_two)) now
  have hdue : Instant.after? now target = some (now + target) := if_pos (Int.le_trans hlast h.2)
  rw [dueWithin, windowEnd?_of_hasWindow h, hdue]
  dsimp only [Option.getD_some]
  rw [if_neg (Int.not_lt.mpr hfirst), if_neg (Int.not_lt.mpr hlast)]

/-! The packets of a source. -/

variable {j : Jitter} {target : Duration} {source : List UInt32}

/-- Learning is in its first packets, or the packet repeats the first one. -/
def IsOnTime (source : List UInt32) (timestamp : UInt32) : Prop :=
  (follow source timestamp).length ≤ 20 ∨ (follow source timestamp).getLast? = some timestamp

/-- The estimator knows from its packets and ticks whether a packet of its source is on time. -/
theorem Hears.isOnTime_iff (hj : j.Hears target source) {timestamp : UInt32}
    (hsame : ¬Begins source timestamp) :
    IsOnTime source timestamp ↔ oneMore j.packets ≤ warmUpLength ∨ j.ticksSince timestamp = 0 := by
  have hsource := (not_or.mp hsame).1
  have hlength : source.length + 1 ≤ 20 ↔ oneMore j.packets ≤ warmUpLength := by
    rw [UInt32.le_iff_toNat_le, toNat_oneMore, hj.packets]
    simp only [warmUpLength, UInt32.reduceToNat, UInt32.size]
    omega
  have hfirst := List.getLast?_eq_some_getLast hsource
  have hrepeats : source.getLast? = some timestamp ↔ j.ticksSince timestamp = 0 := by
    rw [hfirst, Option.some.injEq, ← hj.first hfirst, ticksSince]
    constructor
    · intro h
      rw [h, UInt32.sub_self]
    · intro h
      rw [← UInt32.zero_add j.firstTimestamp, ← h, UInt32.sub_add_cancel]
  rw [IsOnTime, follow_of_not_begins hsame, List.length_cons, List.getLast?_cons_of_ne_nil hsource, hlength,
    hrepeats]

/-- A packet that is on time has always an ideal arrival, its own. Any other is due by the arrival that the
estimate tells, if there is one. -/
theorem Hears.schedule_due (hj : j.Hears target source) (timestamp : UInt32) (now : Instant) :
    (IsOnTime source timestamp → (j.schedule timestamp now).1 = some (dueWithin target now now)) ∧
    (¬IsOnTime source timestamp → ∃ start, j.start = some start ∧
      (j.schedule timestamp now).1 =
        (idealArrival? start (j.schedule timestamp now).2.tickLength (j.ticksSince timestamp).toNat).map
          fun ideal => dueWithin target ideal now) := by
  have hscheduled := j.scheduled timestamp now
  rw [← hj.target]
  generalize j.schedule timestamp now = answer at hscheduled ⊢
  cases hscheduled with
  | restarted hnew =>
      refine ⟨fun _ => rfl, fun hlate => absurd (.inl ?_) hlate⟩
      rw [follow_of_begins (hj.begins_iff.mp hnew)]
      exact Nat.le_of_ble_eq_true rfl
  | repeated start hstart hnear hticks =>
      have hontime := (hj.isOnTime_iff (hj.not_begins hstart hnear)).mpr (.inr hticks)
      exact ⟨fun _ => rfl, fun hlate => absurd hontime hlate⟩
  | warmingUp start tickLength hstart hnear hticks hpackets =>
      have hontime := (hj.isOnTime_iff (hj.not_begins hstart hnear)).mpr (.inl hpackets)
      exact ⟨fun _ => rfl, fun hlate => absurd hontime hlate⟩
  | estimated start tickLength hstart hnear hticks hpackets =>
      have hlate : ¬IsOnTime source timestamp := by
        rw [hj.isOnTime_iff (hj.not_begins hstart hnear)]
        exact not_or.mpr ⟨hpackets, hticks⟩
      exact ⟨fun hontime => absurd hontime hlate, fun _ => ⟨start, hstart, rfl⟩⟩

/-- Whatever time there is for a packet, it is one within the window. -/
theorem Hears.exists_dueWithin (hj : j.Hears target source) {timestamp : UInt32} {now due : Instant}
    (h : (j.schedule timestamp now).1 = some due) : ∃ ideal, due = dueWithin target ideal now := by
  obtain ⟨hontime, hlate⟩ := hj.schedule_due timestamp now
  by_cases hwhich : IsOnTime source timestamp
  · rw [hontime hwhich] at h
    exact ⟨now, (Option.some.inj h).symm⟩
  · obtain ⟨start, -, hdue⟩ := hlate hwhich
    rw [hdue] at h
    obtain ⟨ideal, -, rfl⟩ := Option.map_eq_some_iff.mp h
    exact ⟨ideal, rfl⟩

/-- Learning begins anew exactly with a packet that begins another source. -/
theorem Hears.schedule_restarts (hj : j.Hears target source) (timestamp : UInt32) (now : Instant) :
    ((j.schedule timestamp now).2.packets = 1 ↔ Begins source timestamp) ∧
      (Begins source timestamp → (j.schedule timestamp now).2 = j.restart timestamp now) := by
  have hrestart : Begins source timestamp → (j.schedule timestamp now).2 = j.restart timestamp now := by
    intro hbegins
    have hscheduled := j.scheduled timestamp now
    generalize j.schedule timestamp now = answer at hscheduled ⊢
    cases hscheduled with
    | restarted => rfl
    | repeated _ hstart hnear => exact absurd hbegins (hj.not_begins hstart hnear)
    | warmingUp _ _ hstart hnear => exact absurd hbegins (hj.not_begins hstart hnear)
    | estimated _ _ hstart hnear => exact absurd hbegins (hj.not_begins hstart hnear)
  refine ⟨⟨fun hone => ?_, fun hbegins => by rw [hrestart hbegins]; rfl⟩, hrestart⟩
  refine Classical.byContradiction fun hsame => ?_
  have hpackets := (hj.schedule timestamp now).packets
  have hsource := List.length_pos_iff.mpr (not_or.mp hsame).1
  rw [hone, follow_of_not_begins hsame, List.length_cons, UInt32.toNat_one, UInt32.size] at hpackets
  omega

/-- In every run each time that is given for a packet lies between its arrival and twice the target later, and
is its arrival if the window has no end. Learning begins anew exactly with the first packet and with a packet
more than 240000 ticks ahead of the last one. For the packets that are on time there is always a time, the
target after their arrival. For any other there is none exactly if the time from the first packet to its ideal
arrival is not representable, or the ideal arrival itself. -/
theorem run_due_in_window (target : Duration) (events : List Event) (timestamp : UInt32) (now : Instant) :
    let j := events.foldl after { target := target }
    let source := events.foldl heard []
    let answer := j.schedule timestamp now
    (∀ due, answer.1 = some due → now ≤ due ∧ due ≤ now + (2 * target : Nat) ∧
      (¬HasWindow target now → due = now)) ∧
      (answer.2.packets = 1 ↔ Begins source timestamp) ∧
      (Begins source timestamp → answer.2 = j.restart timestamp now) ∧
      (IsOnTime source timestamp → ∃ due, answer.1 = some due ∧
        (HasWindow target now → due = now + target)) ∧
      (answer.1 = none ↔ ¬IsOnTime source timestamp ∧ ∃ start, j.start = some start ∧
        ∀ offset, Duration.ofSeconds?
            (answer.2.tickLength * Float.ofNat (j.ticksSince timestamp).toNat) = some offset →
          Instant.latest < start + offset) := by
  intro j source answer
  have hj : j.Hears target source := (hears_new target).run events
  obtain ⟨hontime, hlate⟩ : (IsOnTime source timestamp → answer.1 = some (dueWithin target now now)) ∧
      (¬IsOnTime source timestamp → ∃ start, j.start = some start ∧ answer.1 =
        (idealArrival? start answer.2.tickLength (j.ticksSince timestamp).toNat).map
          fun ideal => dueWithin target ideal now) := hj.schedule_due timestamp now
  obtain ⟨hone, hrestart⟩ := hj.schedule_restarts timestamp now
  refine ⟨fun due hdue => ?_, hone, hrestart, fun h => ⟨_, hontime h, dueWithin_now⟩, ?_⟩
  · obtain ⟨ideal, rfl⟩ := hj.exists_dueWithin hdue
    obtain ⟨hfirst, hlast⟩ := dueWithin_mem target ideal now
    exact ⟨hfirst, hlast, fun h => dueWithin_of_not_hasWindow h ideal⟩
  · by_cases hwhich : IsOnTime source timestamp
    · rw [hontime hwhich]
      exact iff_of_false (Option.some_ne_none _) fun h => h.1 hwhich
    · obtain ⟨start, hstart, hdue⟩ := hlate hwhich
      rw [hdue, Option.map_eq_none_iff, idealArrival?_eq_none_iff]
      refine ⟨fun hnone => ⟨hwhich, start, hstart, hnone⟩, ?_⟩
      rintro ⟨-, start', hstart', hnone⟩
      rw [hstart, Option.some.injEq] at hstart'
      rwa [hstart']

end BorderProxy.Jitter
