import ClickHouseRegression.DateTime64.DateText

/-! `time_slots_get_expected`: the slots that a span of time touches. The loop goes on by one second
until it meets a new slot and from there by whole slots. Seconds are exact numbers; `none` is an
`OverflowError` or a loop that has not ended. -/
namespace ClickHouseRegression.DateTime64
open Calendar

/-- A `timedelta` of so many microseconds: below 1000000000 days either way. -/
def timedelta (micros : ℤ) : Option ℤ :=
  if -999999999*(dayLength : ℤ) ≤ micros ∧ micros < 1000000000*(dayLength : ℤ) then some micros
  else none

/-- From here on an `int` is too large to be converted to a `float`. -/
def floatLimit : ℤ := 2^1024-2^970

/-- The text of `zero_time + timedelta(seconds=(delta.total_seconds() // size * size))`. -/
def slotText (delta size : ℤ) : Option Text :=
  if size < floatLimit then do
    let seconds ← timedelta (delta/(1000000*size)*size*1000000)
    let r ← DateTime.ofInstant (epoch+seconds)
    return secondsText r
  else none

/-- The loop `while s <= duration`. -/
def slotsFrom (since duration size : ℤ) : ℕ → ℤ → List Text → Option (List Text)
  | 0,_,_ => none
  | fuel+1,s,result =>
    if s ≤ duration then do
      let shift ← timedelta (s*1000000)
      let delta ← timedelta (since+shift)
      let r ← slotText delta size
      if r ∉ result then slotsFrom since duration size fuel (s+size) (result ++ [r])
      else slotsFrom since duration size fuel (s+1) result
    else some result

def timeSlotsGetExpected (dt : DateTime) (duration size : ℤ) : Option (List Text) := do
  let first ← slotText (dt.instant-epoch) size
  slotsFrom (dt.instant-epoch) duration size (duration.toNat+1) 1 [first]

/-- Whole seconds since 1970. -/
def secondsSinceEpoch (dt : DateTime) : ℤ := (dt.instant-epoch)/1000000

/-- The slots with the numbers from the one of `t` to the one of `t+duration`, as instants. -/
def slotStarts (t duration size : ℤ) : List ℤ :=
  (List.range ((t+duration)/size-t/size+1).toNat).map fun i : ℕ =>
    epoch+(t/size+i)*size*1000000

/-- The slots are in the years 1 to 9999 and the span is not too long for a `timedelta`; such a size
is a `float`. -/
structure SlotsInRange (t duration size : ℤ) : Prop where
  first : 0 ≤ epoch+t/size*size*1000000
  last : epoch+(t+duration)/size*size*1000000 < (january1 10000 : ℤ)*dayLength
  span : duration < 86400000000000 ∧ t+duration < 86400000000000
  size_lt : size < floatLimit

theorem timedelta_of_bounds {seconds : ℤ} (h0 : -86399999913600 ≤ seconds)
    (h : seconds < 86400000000000) : timedelta (seconds*1000000) = some (seconds*1000000) := by
  rw [timedelta,if_pos]
  rw [dayLength_eq]
  omega

/-- A slot in range has a text, the one of a datetime in whole seconds. -/
theorem slotText_eq {t size k : ℤ} (hsize : 1 ≤ size) (hfloat : size < floatLimit)
    (hk : k*size ≤ t) (hk' : t < k*size+size) (h0 : 0 ≤ epoch+k*size*1000000)
    (hend : epoch+k*size*1000000 < (january1 10000 : ℤ)*dayLength) :
    ∃ d : DateTime, slotText (t*1000000) size = some (secondsText d) ∧
      d.instant = epoch+k*size*1000000 := by
  have hslot : t*1000000/(1000000*size) = k := by
    rw [Int.mul_comm 1000000 size,Int.mul_ediv_mul_of_pos_left _ _ (by decide)]
    exact (Int.ediv_eq_iff_of_pos (by omega)).2 ⟨hk,hk'⟩
  have hL := dayLength_eq
  have he := epoch_eq
  have hj : january1 10000 = 3652059 := january1_last
  rw [hL,hj] at hend
  obtain ⟨d,hd⟩ := DateTime.exists_ofInstant h0 (by rw [hL,hj]; exact hend)
  refine ⟨d,?_,DateTime.ofInstant_eq_some.1 hd⟩
  rw [slotText,if_pos hfloat,hslot,timedelta_of_bounds (by omega) (by omega)]
  simp only [Option.bind_eq_bind,Option.bind_some,hd,Option.pure_def]

/-- The state of the loop: the first `n` slots are there, and the time that is looked at is in the
last of them or at the very start of the next one. -/
structure Phase (t duration size s : ℤ) (n : ℕ) (slots : List DateTime) : Prop where
  some_slot : 1 ≤ n
  pos : 1 ≤ s
  starts : slots.map DateTime.instant =
    (List.range n).map fun i : ℕ => epoch+(t/size+i)*size*1000000
  low : (t/size+n)*size-size ≤ t+s
  high : t+s ≤ (t/size+n)*size
  reached : (t/size+n)*size-size ≤ t+duration

namespace Phase
variable {t duration size s : ℤ} {n : ℕ} {slots : List DateTime}

/-- Whether a slot is in the list can be seen from the texts. -/
theorem mem_texts (hp : Phase t duration size s n slots) {d : DateTime} {k : ℤ}
    (hd : d.instant = epoch+k*size*1000000) :
    secondsText d ∈ slots.map secondsText ↔ d.instant ∈ (List.range n).map fun i : ℕ =>
      epoch+(t/size+i)*size*1000000 := by
  have hwhole : ∀ {e : DateTime} {k : ℤ}, e.instant = epoch+k*size*1000000 → e.microsecond = 0 := by
    intro e k he
    have hmod := instant_mod_second e
    rw [he,epoch_eq] at hmod
    omega
  rw [← hp.starts,List.mem_map,List.mem_map]
  constructor
  · rintro ⟨e,he,htext⟩
    have hmem : e.instant ∈ slots.map DateTime.instant := List.mem_map_of_mem he
    rw [hp.starts] at hmem
    obtain ⟨i,-,hi⟩ := List.mem_map.1 hmem
    exact ⟨e,he,by rw [(secondsText_inj (hwhole hi.symm) (hwhole hd)).1 htext]⟩
  · rintro ⟨e,he,hinstant⟩
    exact ⟨e,he,by rw [DateTime.instant_injective hinstant]⟩

theorem stay (hp : Phase t duration size s n slots) (h : t+s < (t/size+n)*size) :
    Phase t duration size (s+1) n slots := by
  have hlow := hp.low
  have hpos := hp.pos
  exact ⟨hp.some_slot,by omega,hp.starts,by omega,by omega,hp.reached⟩

theorem next (hp : Phase t duration size s n slots) (hsize : 1 ≤ size)
    (h : t+s = (t/size+n)*size) (hs : s ≤ duration) {d : DateTime}
    (hd : d.instant = epoch+(t/size+n)*size*1000000) :
    Phase t duration size (s+size) (n+1) (slots ++ [d]) := by
  have hpos := hp.pos
  have hstep : (t/size+(n+1 : ℕ))*size = (t/size+n)*size+size := by
    push_cast
    ring
  refine ⟨by omega,by omega,?_,by omega,by omega,by omega⟩
  rw [List.map_append,hp.starts,List.range_succ,List.map_append,List.map_singleton,
    List.map_singleton,hd]

/-- After the loop all slots are there. -/
theorem done (hp : Phase t duration size s n slots) (hsize : 1 ≤ size) (h : duration < s) :
    slots.map DateTime.instant = slotStarts t duration size := by
  have hhigh := hp.high
  have hreached := hp.reached
  have hn := hp.some_slot
  have hshift : (t/size+n-1)*size = (t/size+n)*size-size := by ring
  have hlast : (t+duration)/size = t/size+n-1 :=
    (Int.ediv_eq_iff_of_pos (by omega)).2 ⟨by omega,by omega⟩
  rw [hp.starts,slotStarts,hlast]
  congr 2
  omega

end Phase

section
variable {t duration size : ℤ} (hsize : 1 ≤ size) (hr : SlotsInRange t duration size)
include hsize hr

/-- The slots between the first and the last one are in range with them. -/
theorem SlotsInRange.between {k : ℤ} (hfirst : t/size ≤ k) (hlast : k*size ≤ t+duration) :
    0 ≤ epoch+k*size*1000000 ∧ epoch+k*size*1000000 < (january1 10000 : ℤ)*dayLength := by
  have hlow : t/size*size ≤ k*size := Int.mul_le_mul_of_nonneg_right hfirst (by omega)
  have hk : k ≤ (t+duration)/size := (Int.le_ediv_iff_mul_le (by omega)).2 hlast
  have hhigh : k*size ≤ (t+duration)/size*size := Int.mul_le_mul_of_nonneg_right hk (by omega)
  have hf := hr.first
  have hl := hr.last
  constructor
  · omega
  · omega

/-- The slot that the loop computes at `s`. -/
theorem slotText_at {s k : ℤ} (hs : 1 ≤ s) (hs' : s ≤ duration) (hfirst : t/size ≤ k)
    (hk : k*size ≤ t+s) (hk' : t+s < k*size+size) :
    ∃ d : DateTime, (timedelta (s*1000000) >>= fun shift => timedelta (t*1000000+shift) >>=
        fun delta => slotText delta size) = some (secondsText d) ∧
      d.instant = epoch+k*size*1000000 := by
  obtain ⟨h0,hend⟩ := hr.between hsize hfirst (by omega)
  obtain ⟨d,hd,hinstant⟩ := slotText_eq hsize hr.size_lt hk hk' h0 hend
  refine ⟨d,?_,hinstant⟩
  have hspan := hr.span
  have hf := hr.first
  have he := epoch_eq
  have ht : t/size*size ≤ t := Int.ediv_mul_le t (by omega)
  have hsum : t*1000000+s*1000000 = (t+s)*1000000 := by ring
  rw [timedelta_of_bounds (by omega) (by omega),Option.bind_eq_bind,Option.bind_some,hsum,
    timedelta_of_bounds (by omega) (by omega),Option.bind_some,hd]

/-- From a state of the loop it ends with all slots. -/
theorem slotsFrom_of_phase {fuel n : ℕ} {s : ℤ} {slots : List DateTime}
    (hp : Phase t duration size s n slots) (hfuel : duration-s+1 ≤ fuel) :
    ∃ slots' : List DateTime,
      slotsFrom (t*1000000) duration size (fuel+1) s (slots.map secondsText) =
        some (slots'.map secondsText) ∧ slots'.map DateTime.instant = slotStarts t duration size := by
  induction fuel generalizing s n slots with
  | zero =>
    have hend : ¬ s ≤ duration := by omega
    exact ⟨slots,by rw [slotsFrom,if_neg hend],hp.done hsize (by omega)⟩
  | succ fuel ih =>
    by_cases hend : s ≤ duration
    · have hn := hp.some_slot
      have hlow := hp.low
      have hhigh := hp.high
      rw [slotsFrom,if_pos hend]
      rcases hhigh.lt_or_eq with hlt | heq
      · -- still in the last slot, which is in the list
        have hshift : (t/size+n-1)*size = (t/size+n)*size-size := by ring
        obtain ⟨d,hd,hinstant⟩ := slotText_at hsize hr (k := t/size+n-1) hp.pos hend (by omega)
          (by omega) (by omega)
        have hmem : secondsText d ∈ slots.map secondsText := by
          rw [hp.mem_texts hinstant,hinstant]
          exact List.mem_map.2 ⟨n-1,List.mem_range.2 (by omega),by rw [Nat.cast_sub hn]; ring⟩
        simp only [← bind_assoc] at hd ⊢
        rw [hd,Option.bind_eq_bind,Option.bind_some,if_neg (not_not_intro hmem)]
        exact ih (hp.stay hlt) (by omega)
      · -- at the start of the next slot
        obtain ⟨d,hd,hinstant⟩ := slotText_at hsize hr (k := t/size+n) hp.pos hend (by omega)
          (by omega) (by omega)
        have hmem : secondsText d ∉ slots.map secondsText := by
          rw [hp.mem_texts hinstant,hinstant]
          intro h
          obtain ⟨i,hi,he⟩ := List.mem_map.1 h
          rw [List.mem_range] at hi
          have hlt : (t/size+i)*size < (t/size+n)*size :=
            Int.mul_lt_mul_of_pos_right (by omega) (by omega)
          omega
        simp only [← bind_assoc] at hd ⊢
        rw [hd,Option.bind_eq_bind,Option.bind_some,if_pos hmem]
        have hnext := ih (hp.next hsize heq hend hinstant) (by omega)
        rw [List.map_append] at hnext
        exact hnext
    · exact ⟨slots,by rw [slotsFrom,if_neg hend],hp.done hsize (by omega)⟩

end

/-- The helper returns the slots that the span touches, in order. -/
theorem timeSlotsGetExpected_slots (dt : DateTime) (hdt : dt.microsecond = 0) {duration size : ℤ}
    (hduration : 0 ≤ duration) (hsize : 1 ≤ size)
    (hr : SlotsInRange (secondsSinceEpoch dt) duration size) :
    ∃ slots : List DateTime, timeSlotsGetExpected dt duration size = some (slots.map secondsText) ∧
      slots.map DateTime.instant = slotStarts (secondsSinceEpoch dt) duration size := by
  have hsince : dt.instant-epoch = secondsSinceEpoch dt*1000000 := by
    have hmod := instant_mod_second dt
    rw [hdt] at hmod
    rw [secondsSinceEpoch,epoch_eq]
    omega
  generalize secondsSinceEpoch dt = t at *
  have hbounds := (Int.ediv_eq_iff_of_pos (x := t) (show 0 < size by omega)).1 rfl
  obtain ⟨h0,hend⟩ := hr.between hsize le_rfl (by omega)
  obtain ⟨d,hd,hinstant⟩ := slotText_eq hsize hr.size_lt hbounds.1 hbounds.2 h0 hend
  have hstep : (t/size+(1 : ℕ))*size = t/size*size+size := by
    push_cast
    ring
  have hphase : Phase t duration size 1 1 [d] := by
    refine ⟨le_rfl,le_rfl,?_,by omega,by omega,by omega⟩
    simp [hinstant]
  rw [timeSlotsGetExpected,hsince,hd]
  exact slotsFrom_of_phase hsize hr hphase (by omega)

/-- 1969-12-31 23:59:58. -/
def beforeEpoch : DateTime := datetime 1969 12 31 23 59 58 0 (by decide)

/-- Slots of three seconds from before 1970 to after it. -/
theorem timeSlotsGetExpected_beforeEpoch :
    ∃ slots : List DateTime, timeSlotsGetExpected beforeEpoch 7 3 = some (slots.map secondsText) ∧
      slots.map DateTime.instant = [epoch-3000000,epoch,epoch+3000000] := by
  have ht : secondsSinceEpoch beforeEpoch = -2 := by decide +kernel
  have hr : SlotsInRange (secondsSinceEpoch beforeEpoch) 7 3 := by
    rw [ht]
    refine ⟨by decide +kernel,by decide +kernel,by decide,by decide +kernel⟩
  obtain ⟨slots,hslots,hstarts⟩ :=
    timeSlotsGetExpected_slots beforeEpoch rfl (by decide) (by decide) hr
  refine ⟨slots,hslots,?_⟩
  rw [hstarts,ht]
  rfl

/-- 9999-12-31 23:59:59. -/
def lastSecond : DateTime := datetime 9999 12 31 23 59 59 0 (by decide)

/-- The second slot after the last second of 9999 overflows. -/
theorem timeSlotsGetExpected_lastSecond :
    ¬ ∀ (dt : DateTime) (duration size : ℤ), dt.microsecond = 0 → 0 ≤ duration → 1 ≤ size →
      ∃ slots : List DateTime,
        timeSlotsGetExpected dt duration size = some (slots.map secondsText) ∧
          slots.map DateTime.instant = slotStarts (secondsSinceEpoch dt) duration size := by
  intro h
  obtain ⟨slots,hslots,-⟩ := h lastSecond 1 1 rfl (by decide) le_rfl
  have hnone : timeSlotsGetExpected lastSecond 1 1 = none := by decide +kernel
  rw [hnone] at hslots
  exact absurd hslots (by simp)

end ClickHouseRegression.DateTime64
