import Atlas.SourceGateway.Rate

/-!
# Slots of a rate are apart

The next request is at or after the end of every slot that is held, so a slot that starts there is
apart from all of them. A sleeper takes the slot it has seen only if the next request is there once
more, whoever has moved it in between, and its timer has not fired before that time. As the slots
that are held are apart, only the newest one can end at the next request, and every other one ends
by its start.
-/

namespace Atlas.SourceGateway

variable {interval : ℕ}

/-- What holds of a caller at any time. -/
def RateCaller.Sound (interval clock nextRequest : ℕ) : RateCaller → Prop
  | .entering => True
  | .unlocked waitUntil current _ => current ≤ clock ∧ waitUntil ≤ current + interval
  | .waiting waitUntil fires _ => waitUntil ≤ fires
  | .refused => True
  | .granted reservation time =>
    reservation.next = reservation.grantedAt + interval ∧ reservation.grantedAt ≤ time ∧
      reservation.next ≤ nextRequest
  | .released reservation time =>
    reservation.next = reservation.grantedAt + interval ∧ reservation.grantedAt ≤ time

/-- The slots of two callers are apart, if both are held. -/
def RateCaller.Apart : RateCaller → RateCaller → Prop
  | .granted reservation _, .granted other _ =>
    reservation.next ≤ other.grantedAt ∨ other.next ≤ reservation.grantedAt
  | _, _ => True

structure RateWorld.Slotted (interval : ℕ) (world : RateWorld) : Prop where
  nextRequest_le : world.nextRequest ≤ world.clock + interval
  sound : ∀ i, (world.callers i).Sound interval world.clock world.nextRequest
  apart : ∀ i j, i ≠ j → (world.callers i).Apart (world.callers j)

theorem RateCaller.Sound.mono {clock clock' nextRequest nextRequest' : ℕ} (hclock : clock ≤ clock')
    (hnext : nextRequest ≤ nextRequest') : ∀ {caller : RateCaller},
    caller.Sound interval clock nextRequest → caller.Sound interval clock' nextRequest'
  | .entering, _ => trivial
  | .unlocked _ _ _, h => ⟨h.1.trans hclock, h.2⟩
  | .waiting _ _ _, h => h
  | .refused, _ => trivial
  | .granted _ _, h => ⟨h.1, h.2.1, h.2.2.trans hnext⟩
  | .released _ _, h => h

theorem RateCaller.Apart.symm : ∀ {caller other : RateCaller}, caller.Apart other →
    other.Apart caller
  | .granted _ _, .granted _ _, h => Or.symm h
  | .granted _ _, .entering, _ | .granted _ _, .unlocked .., _ | .granted _ _, .waiting .., _
  | .granted _ _, .refused, _ | .granted _ _, .released .., _ => trivial
  | .entering, _, _ | .unlocked .., _, _ | .waiting .., _, _ | .refused, _, _
  | .released .., _, _ => by unfold RateCaller.Apart; split <;> simp_all

/-- A caller without a slot. -/
def RateCaller.Idle (caller : RateCaller) : Prop :=
  ∀ reservation time, caller ≠ .granted reservation time

theorem RateCaller.Idle.apart {caller : RateCaller} (h : caller.Idle) (other : RateCaller) :
    caller.Apart other := by
  unfold RateCaller.Apart
  split
  · exact absurd rfl (h _ _)
  · trivial

namespace RateWorld

variable {world : RateWorld}

theorem put_callers_self (caller : ℕ) (state : RateCaller) :
    (world.put caller state).callers caller = state :=
  Function.update_self ..

theorem put_callers_of_ne {caller i : ℕ} (h : i ≠ caller) (state : RateCaller) :
    (world.put caller state).callers i = world.callers i :=
  Function.update_of_ne h ..

/-- One caller moves on, and the next request as far as the others allow it to. -/
theorem Slotted.put {next : RateWorld} (h : world.Slotted interval) (caller : ℕ)
    {state : RateCaller} (hcallers : next.callers = (world.put caller state).callers)
    (hclock : world.clock ≤ next.clock) (hnext : next.nextRequest ≤ next.clock + interval)
    (hsound : state.Sound interval next.clock next.nextRequest)
    (hothers : ∀ i, i ≠ caller →
      (world.callers i).Sound interval world.clock next.nextRequest)
    (hapart : ∀ i, i ≠ caller → state.Apart (world.callers i)) : next.Slotted interval := by
  refine ⟨hnext, fun i => ?_, fun i j hij => ?_⟩
  · rw [hcallers]
    by_cases hi : i = caller
    · subst hi
      rwa [put_callers_self]
    · rw [put_callers_of_ne hi]
      exact (hothers i hi).mono hclock le_rfl
  · rw [hcallers]
    by_cases hi : i = caller
    · subst hi
      rw [put_callers_self, put_callers_of_ne hij.symm]
      exact hapart j hij.symm
    · by_cases hj : j = caller
      · subst hj
        rw [put_callers_self, put_callers_of_ne hi]
        exact (hapart i hi).symm
      · rw [put_callers_of_ne hi, put_callers_of_ne hj]
        exact h.apart i j hij

theorem Slotted.idle (h : world.Slotted interval) (caller : ℕ) {state : RateCaller}
    (hidle : state.Idle) (hsound : state.Sound interval world.clock world.nextRequest) :
    (world.put caller state).Slotted interval :=
  h.put caller rfl le_rfl h.nextRequest_le hsound (fun i _ => h.sound i)
    fun i _ => hidle.apart (world.callers i)

/-- A slot may start where every other one has ended, as soon as its time has come. -/
theorem Slotted.grant (h : world.Slotted interval) (caller : ℕ) {waitUntil : ℕ}
    (hfree : world.nextRequest ≤ waitUntil) (htime : waitUntil ≤ world.clock) :
    (world.grant interval caller waitUntil).Slotted interval := by
  refine h.put caller rfl le_rfl ?_ ⟨rfl, htime, le_rfl⟩ (fun i _ => ?_) fun i _ => ?_
  · exact Nat.add_le_add_right htime interval
  · exact (h.sound i).mono le_rfl (hfree.trans (Nat.le_add_right _ _))
  · have hi := h.sound i
    unfold RateCaller.Apart
    split
    · rename_i hgranted hother
      rw [hother] at hi
      obtain ⟨rfl, -⟩ := RateCaller.granted.inj hgranted
      exact Or.inr (hi.2.2.trans hfree)
    · trivial

/-- The others end by the start of the newest slot. -/
theorem Slotted.newest (h : world.Slotted interval) (hpos : 0 < interval) {i j : ℕ} (hij : i ≠ j)
    {reservation other : RateReservation} {time otherTime : ℕ}
    (hi : world.callers i = .granted reservation time)
    (hj : world.callers j = .granted other otherTime)
    (hnewest : world.nextRequest = reservation.next) : other.next ≤ reservation.grantedAt := by
  have hsound := h.sound j
  have hapart := h.apart i j hij
  rw [hi, hj] at hapart
  rw [hj] at hsound
  obtain ⟨hnext, -, hle⟩ := hsound
  rcases hapart with hbefore | hbefore
  · omega
  · exact hbefore

theorem Slotted.releaseRate (h : world.Slotted interval) (hpos : 0 < interval) {caller : ℕ}
    {reservation : RateReservation} {time : ℕ}
    (hcaller : world.callers caller = .granted reservation time) :
    ((world.releaseRate reservation).put caller (.released reservation time)).Slotted interval := by
  have hsound := h.sound caller
  rw [hcaller] at hsound
  obtain ⟨hnext, htime, hle⟩ := hsound
  have hidle : (RateCaller.released reservation time).Idle := nofun
  have hzero : reservation.next ≠ 0 := by omega
  unfold RateWorld.releaseRate
  rw [if_neg hzero]
  split
  · rename_i hnewest
    refine h.put caller rfl le_rfl ?_ ⟨hnext, htime⟩ (fun i hi => ?_) fun i _ => hidle.apart _
    · have := h.nextRequest_le
      change reservation.grantedAt ≤ world.clock + interval
      omega
    · have hother := h.sound i
      match hstate : world.callers i with
      | .granted other otherTime =>
        rw [hstate] at hother
        exact ⟨hother.1, hother.2.1, h.newest hpos hi.symm hcaller hstate hnewest⟩
      | .entering | .unlocked .. | .waiting .. | .refused | .released .. =>
        rw [hstate] at hother
        exact hother
  · exact h.idle caller hidle ⟨hnext, htime⟩

theorem Slotted.enter (h : world.Slotted interval) (caller : ℕ) (expired : Bool) :
    (world.enter interval caller expired).Slotted interval := by
  have hle := h.nextRequest_le
  unfold RateWorld.enter
  split
  · exact h.idle caller nofun trivial
  · simp only []
    split_ifs with hpast hnow hnow
    · exact absurd hnow (lt_irrefl _)
    · exact h.grant caller hpast.le le_rfl
    · exact h.idle caller nofun ⟨le_rfl, hle⟩
    · exact h.grant caller le_rfl (not_lt.1 hnow)

theorem Slotted.timerFired (h : world.Slotted interval) (caller : ℕ) {waitUntil : ℕ}
    (expired : Bool) (htime : waitUntil ≤ world.clock) :
    (world.timerFired interval caller waitUntil expired).Slotted interval := by
  unfold RateWorld.timerFired
  split_ifs with hsame hexpired
  · exact h.idle caller nofun trivial
  · exact h.grant caller hsame.le htime
  · exact h.idle caller nofun trivial

theorem Slotted.step {next : RateWorld} (h : world.Slotted interval) (hpos : 0 < interval)
    (hfits : interval ≤ maxDuration) (action : RateAction)
    (hstep : world.step interval action = some next) : next.Slotted interval := by
  cases action with
  | tick elapsed =>
    obtain rfl := Option.some.inj hstep
    have hclock : world.clock ≤ world.clock + elapsed := Nat.le_add_right _ _
    exact ⟨h.nextRequest_le.trans (Nat.add_le_add_right hclock _),
      fun i => (h.sound i).mono hclock le_rfl, h.apart⟩
  | enter caller expired =>
    simp only [RateWorld.step] at hstep
    split at hstep
    · obtain rfl := Option.some.inj hstep
      exact h.enter caller expired
    · cases hstep
  | newTimer caller =>
    simp only [RateWorld.step] at hstep
    split at hstep
    · rename_i waitUntil current rateChanged hcaller
      obtain rfl := Option.some.inj hstep
      have hsound := h.sound caller
      rw [hcaller] at hsound
      obtain ⟨hcurrent, hwait⟩ := hsound
      refine h.idle caller nofun ?_
      -- the duration is not cut short, so the timer is set for the slot or later
      change waitUntil ≤ world.clock + min (waitUntil - current) maxDuration
      omega
    · cases hstep
  | timerFired caller expired =>
    simp only [RateWorld.step] at hstep
    split at hstep
    · rename_i waitUntil fires rateChanged hcaller
      have hsound := h.sound caller
      rw [hcaller] at hsound
      split at hstep
      · rename_i hfires
        obtain rfl := Option.some.inj hstep
        exact h.timerFired caller expired (hsound.trans hfires)
      · cases hstep
    · cases hstep
  | rateChanged caller =>
    simp only [RateWorld.step] at hstep
    split at hstep
    · split at hstep
      · obtain rfl := Option.some.inj hstep
        exact h.idle caller nofun trivial
      · cases hstep
    · cases hstep
  | cancelled caller =>
    simp only [RateWorld.step] at hstep
    split at hstep
    · obtain rfl := Option.some.inj hstep
      exact h.idle caller nofun trivial
    · cases hstep
  | releaseRate caller =>
    simp only [RateWorld.step] at hstep
    split at hstep
    · rename_i reservation time hcaller
      obtain rfl := Option.some.inj hstep
      exact h.releaseRate hpos hcaller
    · cases hstep

end RateWorld

theorem RateReachable.slotted (hpos : 0 < interval) (hfits : interval ≤ maxDuration)
    {world : RateWorld} (h : RateReachable interval world) : world.Slotted interval := by
  induction h with
  | new clock => exact ⟨Nat.zero_le _, fun _ => trivial, fun _ _ _ => trivial⟩
  | step action _ hstep ih => exact ih.step hpos hfits action hstep

/-- Whatever callers do and whenever they do it, slots that are held are an interval apart, none is
granted before its time, the next request is not before the end of any, and a release moves it back
only from the end of the newest slot to its start, where all others have ended. -/
theorem rate_slots_apart (hpos : 0 < interval) (hfits : interval ≤ maxDuration) {world : RateWorld}
    (h : RateReachable interval world) :
    (∀ i j reservation time other otherTime, i ≠ j →
      world.callers i = .granted reservation time → world.callers j = .granted other otherTime →
      reservation.grantedAt + interval ≤ other.grantedAt ∨
        other.grantedAt + interval ≤ reservation.grantedAt) ∧
    (∀ i reservation time, (world.callers i = .granted reservation time ∨
        world.callers i = .released reservation time) → reservation.grantedAt ≤ time) ∧
    (∀ i reservation time, world.callers i = .granted reservation time →
      reservation.next = reservation.grantedAt + interval ∧
        reservation.next ≤ world.nextRequest) ∧
    ∀ i reservation time next, world.callers i = .granted reservation time →
      world.step interval (.releaseRate i) = some next → next.nextRequest ≠ world.nextRequest →
      world.nextRequest = reservation.next ∧ next.nextRequest = reservation.grantedAt ∧
        ∀ j other otherTime, j ≠ i → world.callers j = .granted other otherTime →
          other.next ≤ reservation.grantedAt := by
  have hslotted := h.slotted hpos hfits
  refine ⟨?_, ?_, ?_, ?_⟩
  · intro i j reservation time other otherTime hij hi hj
    have hsound := hslotted.sound i
    have hother := hslotted.sound j
    have hapart := hslotted.apart i j hij
    rw [hi, hj] at hapart
    rw [hi] at hsound
    rw [hj] at hother
    rw [← hsound.1, ← hother.1]
    exact hapart
  · rintro i reservation time (hi | hi)
    · have hsound := hslotted.sound i
      rw [hi] at hsound
      exact hsound.2.1
    · have hsound := hslotted.sound i
      rw [hi] at hsound
      exact hsound.2
  · intro i reservation time hi
    have hsound := hslotted.sound i
    rw [hi] at hsound
    exact ⟨hsound.1, hsound.2.2⟩
  · intro i reservation time next hi hstep hmoved
    simp only [RateWorld.step, hi, Option.some.injEq] at hstep
    subst hstep
    unfold RateWorld.releaseRate at hmoved ⊢
    split_ifs at hmoved ⊢ with hzero hnewest
    · exact absurd rfl hmoved
    · exact ⟨hnewest, rfl, fun j other otherTime hj hother =>
        hslotted.newest hpos hj.symm hi hother hnewest⟩
    · exact absurd rfl hmoved

/-- One caller gets its slot at once, and another one has to sleep for its own. -/
def asleep : RateWorld :=
  (((RateWorld.new 5).enter 10 0 false).enter 10 1 false).newTimer 1 15 5 0

def slotsTaken : RateWorld :=
  { asleep with clock := 15 }.timerFired 10 1 15 false

theorem asleep_reachable : RateReachable 10 asleep := by
  have first : RateReachable 10 ((RateWorld.new 5).enter 10 0 false) :=
    (RateReachable.new 5).step (.enter 0 false) rfl
  have second : RateReachable 10 (((RateWorld.new 5).enter 10 0 false).enter 10 1 false) :=
    first.step (.enter 1 false) rfl
  exact second.step (.newTimer 1) rfl

theorem slotsTaken_reachable : RateReachable 10 slotsTaken := by
  have late : RateReachable 10 { asleep with clock := 15 } :=
    asleep_reachable.step (.tick 10) rfl
  exact late.step (.timerFired 1 false) rfl

theorem rate_slots_apart_slotsTaken :
    slotsTaken.callers 0 = .granted ⟨5, 15⟩ 5 ∧ slotsTaken.callers 1 = .granted ⟨15, 25⟩ 15 ∧
      ((5 : ℕ) + 10 ≤ 15 ∨ (15 : ℕ) + 10 ≤ 5) :=
  ⟨rfl, rfl, (rate_slots_apart (by decide) (by decide) slotsTaken_reachable).1 0 1 ⟨5, 15⟩ 5
    ⟨15, 25⟩ 15 (by decide) rfl rfl⟩

section Windows

/-- Points that are a distance apart fall into different parts of that length. -/
theorem card_mul_lt_of_apart {ι : Type} {s : Finset ι} {f : ι → ℕ} {d start window : ℕ}
    (hd : 0 < d) (hapart : ∀ i ∈ s, ∀ j ∈ s, i ≠ j → f i + d ≤ f j ∨ f j + d ≤ f i)
    (hwithin : ∀ i ∈ s, start ≤ f i ∧ f i < start + window) : s.card * d < window + d := by
  have hinj : Set.InjOn (fun i => (f i - start) / d) s := by
    intro i hi j hj heq
    by_contra hij
    have hi' := (hwithin i hi).1
    have hj' := (hwithin j hj).1
    have hlower := Nat.div_mul_le_self (f i - start) d
    have hlower' := Nat.div_mul_le_self (f j - start) d
    have hupper := Nat.lt_div_mul_add hd (a := f i - start)
    have hupper' := Nat.lt_div_mul_add hd (a := f j - start)
    simp only at heq
    rw [heq] at hlower hupper
    rcases hapart i hi j hj hij with h | h <;> omega
  have hmaps : ∀ i ∈ s, (f i - start) / d ∈ Finset.range ((window + d - 1) / d) := by
    intro i hi
    have := hwithin i hi
    rw [Finset.mem_range, Nat.div_lt_iff_lt_mul hd]
    have := Nat.lt_div_mul_add hd (a := window + d - 1)
    omega
  have hcard := Finset.card_le_card_of_injOn _ hmaps hinj
  rw [Finset.card_range] at hcard
  have := (Nat.mul_le_mul_right d hcard).trans (Nat.div_mul_le_self _ _)
  omega

/-- However many callers there are, in any stretch of time no more slots are held than it has
intervals, begun ones included. -/
theorem slots_in_window (hpos : 0 < interval) (hfits : interval ≤ maxDuration) {world : RateWorld}
    (h : RateReachable interval world) (start window : ℕ) (callers : Finset ℕ)
    (reservation : ℕ → RateReservation) (time : ℕ → ℕ)
    (hgranted : ∀ i ∈ callers, world.callers i = .granted (reservation i) (time i))
    (hwithin : ∀ i ∈ callers,
      start ≤ (reservation i).grantedAt ∧ (reservation i).grantedAt < start + window) :
    callers.card * interval < window + interval := by
  have hslotted := h.slotted hpos hfits
  refine card_mul_lt_of_apart hpos (fun i hi j hj hij => ?_) hwithin
  have hsound := hslotted.sound i
  have hother := hslotted.sound j
  have hapart := hslotted.apart i j hij
  rw [hgranted i hi, hgranted j hj] at hapart
  rw [hgranted i hi] at hsound
  rw [hgranted j hj] at hother
  rw [← hsound.1, ← hother.1]
  exact hapart

theorem slots_in_window_slotsTaken : ({0, 1} : Finset ℕ).card * 10 < 11 + 10 :=
  slots_in_window (by decide) (by decide) slotsTaken_reachable 5 11 {0, 1}
    (fun i => ⟨5 + 10 * i, 15 + 10 * i⟩) (fun i => 5 + 10 * i)
    (by simp only [Finset.mem_insert, Finset.mem_singleton, forall_eq_or_imp, forall_eq]
        exact ⟨rfl, rfl⟩) (by decide)

end Windows

end Atlas.SourceGateway
