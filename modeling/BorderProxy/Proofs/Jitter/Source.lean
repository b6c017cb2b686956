import BorderProxy.Media.Jitter

/-! What a jitter estimator remembers of its source. The source is the packets since learning began: since the
first packet, the last reset, or the last packet too far from the one before it. The distance from the first
timestamp, as the estimator computes it, is the sum of all steps since then up to multiples of 2^32. So the
ideal arrivals of a source fall back by 2^32 ticks each time that the sum passes such a multiple, and where
it meets one the packet counts as a repetition of the first. -/

namespace BorderProxy.Jitter

/-! One packet. -/

/-- The estimator with one more packet of its source. -/
def noted (j : Jitter) (timestamp : UInt32) : Jitter :=
  { j with previousTimestamp := timestamp, packets := oneMore j.packets }

/-- When a packet is due, if there is an answer, and what is learned from it. -/
inductive Scheduled (j : Jitter) (timestamp : UInt32) (now : Instant) : Option Instant × Jitter → Prop
  | restarted (hnew : j.start = none ∨ longestStep < timestamp - j.previousTimestamp) :
      Scheduled j timestamp now (some (dueWithin j.target now now), j.restart timestamp now)
  | repeated (start : Instant) (hstart : j.start = some start)
      (hnear : ¬ longestStep < timestamp - j.previousTimestamp) (hticks : j.ticksSince timestamp = 0) :
      Scheduled j timestamp now (some (dueWithin j.target now now), j.noted timestamp)
  | warmingUp (start : Instant) (tickLength : Float) (hstart : j.start = some start)
      (hnear : ¬ longestStep < timestamp - j.previousTimestamp) (hticks : j.ticksSince timestamp ≠ 0)
      (hpackets : oneMore j.packets ≤ warmUpLength) :
      Scheduled j timestamp now (some (dueWithin j.target now now), { j.noted timestamp with tickLength })
  | estimated (start : Instant) (tickLength : Float) (hstart : j.start = some start)
      (hnear : ¬ longestStep < timestamp - j.previousTimestamp) (hticks : j.ticksSince timestamp ≠ 0)
      (hpackets : ¬ oneMore j.packets ≤ warmUpLength) :
      Scheduled j timestamp now
        ((idealArrival? start tickLength (j.ticksSince timestamp).toNat).map fun ideal =>
            dueWithin j.target ideal now,
          { j.noted timestamp with tickLength })

theorem scheduled (j : Jitter) (timestamp : UInt32) (now : Instant) :
    j.Scheduled timestamp now (j.schedule timestamp now) := by
  unfold schedule
  split
  · rename_i hstart
    exact .restarted (.inl hstart)
  · rename_i start hstart
    split
    · rename_i hnew
      exact .restarted (.inr (of_decide_eq_true hnew))
    · rename_i hnear
      have hnear' : ¬ longestStep < timestamp - j.previousTimestamp := fun h => hnear (decide_eq_true h)
      dsimp only
      split
      · rename_i hticks
        exact .repeated start hstart hnear' hticks
      · rename_i hticks
        split
        · rename_i hpackets
          exact .warmingUp start _ hstart hnear' hticks hpackets
        · rename_i hpackets
          exact .estimated start _ hstart hnear' hticks hpackets

/-! Runs, and the source as they make it. -/

/-- What an estimator meets: a packet, a reset, or any change of its estimate. -/
inductive Event where
  | packet (timestamp : UInt32) (now : Instant)
  | reset
  | estimate (tickLength : Float)

def after (j : Jitter) : Event → Jitter
  | .packet timestamp now => (j.schedule timestamp now).2
  | .reset => j.reset
  | .estimate tickLength => { j with tickLength }

/-- The timestamps of a source with one more packet, the newest first: the packet is the first one of
another source where its timestamp is more than 240000 ticks ahead of the last one. -/
def follow (source : List UInt32) (timestamp : UInt32) : List UInt32 :=
  match source with
  | [] => [timestamp]
  | previous :: _ => if 240000 < timestamp - previous then [timestamp] else timestamp :: source

/-- The timestamps since learning began, the newest first. -/
def heard (source : List UInt32) : Event → List UInt32
  | .packet timestamp _ => follow source timestamp
  | .reset => []
  | .estimate _ => source

/-- An estimator with a target that has heard a source. -/
structure Hears (j : Jitter) (target : Duration) (source : List UInt32) : Prop where
  target : j.target = target
  start : j.start = none ↔ source = []
  first : ∀ {first}, source.getLast? = some first → j.firstTimestamp = first
  previous : ∀ {previous}, source.head? = some previous → j.previousTimestamp = previous
  packets : j.packets.toNat = min source.length (UInt32.size - 1)

theorem hears_new (target : Duration) : Hears { target := target } target [] where
  target := rfl
  start := iff_of_true rfl rfl
  first h := by cases h
  previous h := by cases h
  packets := rfl

theorem toNat_oneMore (packets : UInt32) :
    (oneMore packets).toNat = min (packets.toNat + 1) (UInt32.size - 1) := by
  have hlt := packets.toNat_lt
  unfold oneMore
  split
  · rename_i hlast
    rw [hlast]
    rfl
  · rename_i hlast
    have hne : packets.toNat ≠ 4294967295 := fun h => hlast (UInt32.toNat_inj.mp h)
    rw [UInt32.toNat_add, UInt32.toNat_one]
    unfold UInt32.size
    omega

variable {j : Jitter} {target : Duration} {source : List UInt32} {timestamp : UInt32}

theorem hears_restart (htarget : j.target = target) (timestamp : UInt32) (now : Instant) :
    (j.restart timestamp now).Hears target [timestamp] where
  target := htarget
  start := by simp [restart]
  first h := Option.some.inj h
  previous h := Option.some.inj h
  packets := rfl

/-- A packet begins another source: there is none yet, or its timestamp is more than 240000 ticks ahead of
the last one. -/
def Begins (source : List UInt32) (timestamp : UInt32) : Prop :=
  source = [] ∨ ∃ previous, source.head? = some previous ∧ 240000 < timestamp - previous

theorem follow_of_begins (h : Begins source timestamp) : follow source timestamp = [timestamp] := by
  rcases h with rfl | ⟨previous, hprevious, hfar⟩
  · rfl
  · obtain ⟨rest, rfl⟩ := List.head?_eq_some_iff.mp hprevious
    rw [follow, if_pos hfar]

theorem follow_of_not_begins (h : ¬Begins source timestamp) :
    follow source timestamp = timestamp :: source := by
  obtain ⟨hsource, hnear⟩ := not_or.mp h
  cases source with
  | nil => exact absurd rfl hsource
  | cons previous rest => rw [follow, if_neg fun hfar => hnear ⟨previous, rfl, hfar⟩]

/-- Learning begins anew with the first packet of a source, and only then. -/
theorem Hears.begins_iff (hj : j.Hears target source) :
    (j.start = none ∨ longestStep < timestamp - j.previousTimestamp) ↔ Begins source timestamp := by
  cases source with
  | nil => exact iff_of_true (.inl (hj.start.mpr rfl)) (.inl rfl)
  | cons previous rest =>
      have hstart : j.start ≠ none := fun h => List.cons_ne_nil _ _ (hj.start.mp h)
      rw [hj.previous rfl]
      simp [hstart, longestStep, Begins]

theorem Hears.not_begins (hj : j.Hears target source) {start : Instant} (hstart : j.start = some start)
    (hnear : ¬ longestStep < timestamp - j.previousTimestamp) : ¬Begins source timestamp := by
  rw [← hj.begins_iff, hstart]
  simpa using hnear

theorem Hears.noted (hj : j.Hears target source) (hsource : source ≠ []) (timestamp : UInt32)
    (tickLength : Float) : ({ j.noted timestamp with tickLength } : Jitter).Hears target (timestamp :: source) where
  target := hj.target
  start := iff_of_false (fun h => hsource (hj.start.mp h)) (List.cons_ne_nil _ _)
  first h := by
    rw [List.getLast?_cons_of_ne_nil hsource] at h
    exact hj.first h
  previous h := Option.some.inj h
  packets := by
    rw [List.length_cons]
    show (oneMore j.packets).toNat = _
    rw [toNat_oneMore, hj.packets]
    omega

theorem Hears.schedule (hj : j.Hears target source) (timestamp : UInt32) (now : Instant) :
    (j.schedule timestamp now).2.Hears target (follow source timestamp) := by
  have hscheduled := j.scheduled timestamp now
  generalize j.schedule timestamp now = answer at hscheduled ⊢
  have hnear : ∀ {start}, j.start = some start → ¬ longestStep < timestamp - j.previousTimestamp →
      ∀ tickLength, ({ j.noted timestamp with tickLength } : Jitter).Hears target
        (follow source timestamp) := by
    intro start hstart hnear tickLength
    have hsame := hj.not_begins hstart hnear
    rw [follow_of_not_begins hsame]
    exact hj.noted (not_or.mp hsame).1 timestamp tickLength
  cases hscheduled with
  | restarted hnew =>
      rw [follow_of_begins (hj.begins_iff.mp hnew)]
      exact hears_restart hj.target timestamp now
  | repeated start hstart hfar hticks => exact hnear hstart hfar j.tickLength
  | warmingUp start tickLength hstart hfar => exact hnear hstart hfar tickLength
  | estimated start tickLength hstart hfar => exact hnear hstart hfar tickLength

theorem Hears.after (hj : j.Hears target source) (e : Event) :
    (j.after e).Hears target (heard source e) := by
  cases e with
  | packet timestamp now => exact hj.schedule timestamp now
  | reset =>
      show j.reset.Hears target []
      rw [reset, hj.target]
      exact hears_new target
  | estimate tickLength => exact ⟨hj.target, hj.start, hj.first, hj.previous, hj.packets⟩

theorem Hears.run (hj : j.Hears target source) (events : List Event) :
    (events.foldl Jitter.after j).Hears target (events.foldl heard source) := by
  induction events generalizing j source with
  | nil => exact hj
  | cons e rest ih => exact ih (hj.after e)

/-! The ticks of a source. -/

/-- The ticks from the first timestamp of a source to the last one, step by step. -/
def elapsed : List UInt32 → Nat
  | timestamp :: previous :: rest => (timestamp - previous).toNat + elapsed (previous :: rest)
  | _ => 0

theorem elapsed_cons {previous : UInt32} (h : source.head? = some previous) (timestamp : UInt32) :
    elapsed (timestamp :: source) = (timestamp - previous).toNat + elapsed source := by
  obtain ⟨rest, rfl⟩ := List.head?_eq_some_iff.mp h
  rfl

/-- The distance of two timestamps is the sum of the steps between them, up to multiples of 2^32. -/
theorem toNat_last_sub_first {last first : UInt32} (hlast : source.head? = some last)
    (hfirst : source.getLast? = some first) : (last - first).toNat = elapsed source % UInt32.size := by
  induction source generalizing last with
  | nil => cases hlast
  | cons timestamp rest ih =>
      obtain rfl := Option.some.inj hlast
      cases rest with
      | nil =>
          obtain rfl := Option.some.inj hfirst
          simp [elapsed]
      | cons previous rest =>
          rw [List.getLast?_cons_cons] at hfirst
          have hrest := ih rfl hfirst
          have hsplit : timestamp - first = timestamp - previous + (previous - first) := by
            rw [UInt32.sub_eq_add_neg previous first, ← UInt32.add_assoc, UInt32.sub_add_cancel,
              UInt32.sub_eq_add_neg]
          rw [elapsed, ← Nat.add_mod_mod, ← hrest, ← UInt32.toNat_add, hsplit]

theorem Hears.toNat_ticksSince (hj : j.Hears target source) (hsource : source ≠ []) (timestamp : UInt32) :
    (j.ticksSince timestamp).toNat = elapsed (timestamp :: source) % UInt32.size := by
  have hfirst := List.getLast?_eq_some_getLast hsource
  rw [ticksSince, hj.first hfirst]
  refine toNat_last_sub_first rfl ?_
  rw [List.getLast?_cons_of_ne_nil hsource, hfirst]

theorem Hears.toNat_ticksSince_previous (hj : j.Hears target source) (hsource : source ≠ []) :
    (j.ticksSince j.previousTimestamp).toNat = elapsed source % UInt32.size := by
  have hlast := List.head?_eq_some_head hsource
  have hfirst := List.getLast?_eq_some_getLast hsource
  rw [ticksSince, hj.previous hlast, hj.first hfirst]
  exact toNat_last_sub_first hlast hfirst

/-- The ticks of a source fall back with a packet exactly if the sum of the steps passes a multiple of 2^32
with it. -/
theorem Hears.ticksSince_lt_iff (hj : j.Hears target source) (hsame : ¬Begins source timestamp) :
    j.ticksSince timestamp < j.ticksSince j.previousTimestamp ↔
      elapsed source / UInt32.size < elapsed (timestamp :: source) / UInt32.size := by
  obtain ⟨hsource, hnear⟩ := not_or.mp hsame
  have hprevious := List.head?_eq_some_head hsource
  have hstep : (timestamp - source.head hsource).toNat ≤ 240000 := by
    have hle : ¬ 240000 < timestamp - source.head hsource := fun h => hnear ⟨_, hprevious, h⟩
    rwa [UInt32.lt_iff_toNat_lt, Nat.not_lt] at hle
  rw [UInt32.lt_iff_toNat_lt, hj.toNat_ticksSince hsource, hj.toNat_ticksSince_previous hsource,
    elapsed_cons hprevious]
  unfold UInt32.size
  omega

/-- A packet counts as a repetition of the first one, or it is due by its ideal arrival, as the ticks say. -/
theorem Hears.schedule_spec (hj : j.Hears target source) (hsame : ¬Begins source timestamp) (now : Instant) :
    (j.ticksSince timestamp = 0 →
      j.schedule timestamp now = (some (dueWithin target now now), j.noted timestamp)) ∧
    (j.ticksSince timestamp ≠ 0 → 20 < source.length + 1 → ∃ start tickLength, j.start = some start ∧
      j.schedule timestamp now =
        ((idealArrival? start tickLength (j.ticksSince timestamp).toNat).map fun ideal =>
            dueWithin target ideal now,
          { j.noted timestamp with tickLength })) := by
  have hscheduled := j.scheduled timestamp now
  rw [← hj.target]
  generalize j.schedule timestamp now = answer at hscheduled ⊢
  cases hscheduled with
  | restarted hnew => exact absurd (hj.begins_iff.mp hnew) hsame
  | repeated start hstart hnear hticks => exact ⟨fun _ => rfl, fun hne => absurd hticks hne⟩
  | warmingUp start tickLength hstart hnear hticks hpackets =>
      refine ⟨fun h => absurd h hticks, fun _ hlong => ?_⟩
      simp only [warmUpLength, UInt32.le_iff_toNat_le, toNat_oneMore, hj.packets, UInt32.reduceToNat,
        UInt32.size] at hpackets
      omega
  | estimated start tickLength hstart hnear hticks hpackets =>
      exact ⟨fun h => absurd h hticks, fun _ _ => ⟨start, tickLength, hstart, rfl⟩⟩

/-- In every run the ticks of a packet that does not begin another source are the sum of all steps of the
source less the multiples of 2^32 in it: they are the sum while that is less than 2^32, and they fall back
where it passes a multiple. Where it is a multiple the packet counts as a repetition of the first one; where
it is none, the ideal arrival is told from what remains. -/
theorem run_ticks (target : Duration) (events : List Event) (timestamp : UInt32) (now : Instant)
    (hsame : ¬Begins (events.foldl heard []) timestamp) :
    let j := events.foldl after { target := target }
    let source := events.foldl heard []
    let total := elapsed (timestamp :: source)
    (j.ticksSince timestamp).toNat = total % UInt32.size ∧
      ((j.ticksSince timestamp).toNat = total ↔ total < UInt32.size) ∧
      (j.ticksSince timestamp < j.ticksSince j.previousTimestamp ↔
        elapsed source / UInt32.size < total / UInt32.size) ∧
      (UInt32.size ∣ total →
        j.schedule timestamp now = (some (dueWithin target now now), j.noted timestamp)) ∧
      (¬ UInt32.size ∣ total → 20 < source.length + 1 → ∃ start tickLength, j.start = some start ∧
        j.schedule timestamp now =
          ((idealArrival? start tickLength (total % UInt32.size)).map fun ideal => dueWithin target ideal now,
            { j.noted timestamp with tickLength })) := by
  intro j source total
  have hj : j.Hears target source := (hears_new target).run events
  have hticks : (j.ticksSince timestamp).toNat = total % UInt32.size :=
    hj.toNat_ticksSince (not_or.mp hsame).1 timestamp
  have hzero : j.ticksSince timestamp = 0 ↔ UInt32.size ∣ total := by
    rw [← UInt32.toNat_inj, hticks, UInt32.toNat_zero, Nat.dvd_iff_mod_eq_zero]
  obtain ⟨hrepeated, hestimated⟩ := hj.schedule_spec hsame now
  refine ⟨hticks, ?_, hj.ticksSince_lt_iff hsame, fun h => hrepeated (hzero.mpr h), fun h hlong => ?_⟩
  · rw [hticks, Nat.mod_eq_iff_lt (by decide)]
  · rw [← hticks]
    exact hestimated (mt hzero.mp h) hlong

/-- The second packet of a source is one step away from the first. -/
theorem ticks_secondPacket :
    let first : List Event := [.packet 4294967200 0]
    ¬Begins (first.foldl heard []) 64 ∧
      ((first.foldl after { target := 0 }).ticksSince 64).toNat = 160 := by
  intro first
  have hsame : ¬Begins (first.foldl heard []) 64 := by
    rintro (h | ⟨previous, h, hfar⟩)
    · cases h
    · obtain rfl := Option.some.inj h
      exact absurd hfar (by decide)
  obtain ⟨hticks, -⟩ := run_ticks 0 first 64 0 hsame
  exact ⟨hsame, hticks.trans (by decide)⟩

/-! A source that is heard for a day. -/

/-- The packets of a source with steps of 240000 ticks, five seconds apart. -/
def longCall (count : Nat) : List Event :=
  (List.range count).map fun n => .packet (UInt32.ofNat (240000 * n)) (Duration.seconds (5 * n))

theorem longCall_succ (count : Nat) : longCall (count + 1) =
    longCall count ++ [.packet (UInt32.ofNat (240000 * count)) (Duration.seconds (5 * count))] := by
  simp [longCall, List.range_succ]

/-- All packets of the call belong to one source. -/
theorem heard_longCall (count : Nat) :
    ((longCall (count + 1)).foldl heard []).head? = some (UInt32.ofNat (240000 * count)) ∧
      ((longCall (count + 1)).foldl heard []).length = count + 1 ∧
      elapsed ((longCall (count + 1)).foldl heard []) = 240000 * count := by
  induction count with
  | zero => exact ⟨rfl, rfl, rfl⟩
  | succ count ih =>
      obtain ⟨hlast, hlength, helapsed⟩ := ih
      have hstep : UInt32.ofNat (240000 * (count + 1)) - UInt32.ofNat (240000 * count) = 240000 := by
        rw [Nat.mul_succ, UInt32.ofNat_add, UInt32.add_comm, UInt32.add_sub_cancel]
        rfl
      have hsame : ¬Begins ((longCall (count + 1)).foldl heard []) (UInt32.ofNat (240000 * (count + 1))) := by
        rintro (h | ⟨previous, h, hfar⟩)
        · rw [h] at hlength
          cases hlength
        · obtain rfl := Option.some.inj (hlast.symm.trans h)
          rw [hstep] at hfar
          exact absurd hfar (by decide)
      rw [longCall_succ, List.foldl_append, List.foldl_cons, List.foldl_nil, heard,
        follow_of_not_begins hsame]
      refine ⟨rfl, by rw [List.length_cons, hlength], ?_⟩
      rw [elapsed_cons hlast, hstep, helapsed]
      show 240000 + 240000 * count = _
      omega

/-- After 2^32 ticks the ticks of the call begin anew: the packet that completes them counts as a repetition
of the first one, and its ideal arrival is its own instead of one a day after the first. -/
theorem long_call_begins_anew :
    let j := (longCall 17896).foldl after { target := Duration.milliseconds 100 }
    let source := (longCall 17896).foldl heard []
    source.length = 17896 ∧ ¬Begins source 0 ∧ elapsed (0 :: source) = UInt32.size ∧ j.ticksSince 0 = 0 ∧
      j.ticksSince 0 < j.ticksSince j.previousTimestamp ∧
      (j.schedule 0 89478535000000).1 = some (89478535000000 + Duration.milliseconds 100) := by
  intro j source
  have hj : j.Hears (Duration.milliseconds 100) source := (hears_new _).run (longCall 17896)
  obtain ⟨hlast, hlength, helapsed⟩ : source.head? = some (UInt32.ofNat (240000 * 17895)) ∧
      source.length = 17896 ∧ elapsed source = 240000 * 17895 := heard_longCall 17895
  have hstep : (0 : UInt32) - UInt32.ofNat (240000 * 17895) = 167296 := by decide
  have hsame : ¬Begins source 0 := by
    rintro (h | ⟨previous, h, hfar⟩)
    · rw [h] at hlength
      cases hlength
    · obtain rfl := Option.some.inj (hlast.symm.trans h)
      rw [hstep] at hfar
      exact absurd hfar (by decide)
  have htotal : elapsed (0 :: source) = UInt32.size := by
    rw [elapsed_cons hlast, hstep, helapsed]
    rfl
  have hticks : j.ticksSince 0 = 0 := by
    rw [← UInt32.toNat_inj, hj.toNat_ticksSince (not_or.mp hsame).1, htotal]
    rfl
  have hback : j.ticksSince 0 < j.ticksSince j.previousTimestamp := by
    rw [hj.ticksSince_lt_iff hsame, htotal, helapsed]
    decide
  refine ⟨hlength, hsame, htotal, hticks, hback, ?_⟩
  rw [(hj.schedule_spec hsame _).1 hticks]
  decide

end BorderProxy.Jitter
