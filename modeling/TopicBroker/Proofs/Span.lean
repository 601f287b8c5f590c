import TopicBroker.Span
import TopicBroker.Proofs.Timestamp

/-! # Spans lead where their seconds lead

A number of seconds for which no span is long enough is taken for the longest span. That does no
harm, since both lead out of the range of instants wherever they start. -/

namespace TopicBroker

/-! ## The span of a number of seconds -/

namespace Span

theorem ofTtl?_of_le {ttl : Nat} (h : ttl ≤ longest.seconds) :
    ofTtl? ttl = some ⟨ttl, 0, by decide⟩ := by
  have hrange : Record.IntRange.int64.low ≤ (ttl : Int) ∧
      (ttl : Int) ≤ Record.IntRange.int64.high := by
    simp only [longest, Record.IntRange.int64] at h ⊢
    omega
  simp [ofTtl?, Record.IntRange.member?, hrange, ofSeconds?, h]

theorem ofTtl?_eq_none_iff {ttl : Nat} : ofTtl? ttl = none ↔ longest.seconds < ttl := by
  constructor
  · intro hnone
    by_contra hle
    rw [ofTtl?_of_le (Nat.le_of_not_lt hle)] at hnone
    cases hnone
  · intro hlong
    unfold ofTtl? Record.IntRange.member?
    split <;> simp [ofSeconds?, hlong]

theorem ofTtl_of_le {ttl : Nat} (h : ttl ≤ longest.seconds) : ofTtl ttl = ⟨ttl, 0, by decide⟩ := by
  rw [ofTtl, ofTtl?_of_le h]
  rfl

theorem ofTtl_of_gt {ttl : Nat} (h : longest.seconds < ttl) : ofTtl ttl = longest := by
  rw [ofTtl, ofTtl?_eq_none_iff.mpr h]
  rfl

end Span

/-! ## Where spans lead -/

namespace Instant

theorem of?_eq_none_of_gt {seconds : Int} (h : latest < seconds) (nanos : Nat) :
    of? seconds nanos = none := by
  have hnot : ¬ ((earliest ≤ seconds ∧ seconds ≤ latest) ∧ nanos < 2 * nanosPerSecond) :=
    fun hrange => absurd hrange.1.2 (Int.not_le.mpr h)
  exact dif_neg hnot

theorem of?_self (t : Instant) : of? t.seconds t.nanos = some t :=
  of?_eq_some rfl rfl

theorem fraction_lt (t : Instant) : t.nanos % nanosPerSecond < nanosPerSecond :=
  Nat.mod_lt _ (by decide)

theorem fraction_truncate (t : Instant) : t.truncate.nanos % nanosPerSecond = 0 := by
  simp only [truncate]
  split
  · exact Nat.mod_self _
  · exact Nat.zero_mod _

theorem addSeconds?_zero (t : Instant) : t.addSeconds? ((0 : Nat) : Int) = some t :=
  rfl

theorem addSeconds?_of_ne_zero (t : Instant) {n : Nat} (h : n ≠ 0) :
    t.addSeconds? n = of? (t.seconds + n) (t.nanos % nanosPerSecond) := by
  have hnonzero : (n : Int) ≠ 0 := by omega
  have hforward : ¬ (n : Int) < 0 := by omega
  simp [addSeconds?, h, hforward]

/-- Without a leap second there is nothing special about no seconds at all. -/
theorem addSeconds?_of_lt {t : Instant} (h : t.nanos < nanosPerSecond) (n : Nat) :
    t.addSeconds? n = of? (t.seconds + n) t.nanos := by
  by_cases hzero : n = 0
  · subst hzero
    rw [addSeconds?_zero, Int.natCast_zero, Int.add_zero, of?_self]
  · rw [addSeconds?_of_ne_zero t hzero, Nat.mod_eq_of_lt h]

/-- Seconds lead out of the range only behind its end. -/
theorem addSeconds?_eq_none_iff (t : Instant) (n : Nat) :
    t.addSeconds? n = none ↔ latest < t.seconds + n := by
  obtain ⟨hlow, hhigh⟩ := t.seconds_inRange
  by_cases hzero : n = 0
  · subst hzero
    rw [addSeconds?_zero, Int.natCast_zero, Int.add_zero]
    exact iff_of_false nofun (Int.not_lt.mpr hhigh)
  · rw [addSeconds?_of_ne_zero t hzero]
    constructor
    · intro hnone
      by_contra hin
      have hrange : earliest ≤ t.seconds + n ∧ t.seconds + n ≤ latest := by omega
      have hnanos : t.nanos % nanosPerSecond < 2 * nanosPerSecond :=
        t.fraction_lt.trans (by decide)
      rw [of?, dif_pos ⟨hrange, hnanos⟩] at hnone
      cases hnone
    · exact fun hout => of?_eq_none_of_gt hout _

/-- Where no span is long enough, no instant is early enough. -/
theorem latest_lt_of_longest_lt {ttl : Nat} (h : Span.longest.seconds < ttl) (t : Instant) :
    latest < t.seconds + ttl := by
  have hlow := t.seconds_inRange.1
  simp only [earliest, latest, Span.longest] at hlow h ⊢
  omega

/-- The longest span leads nowhere. -/
theorem later?_longest (t : Instant) : t.later? .longest = none := by
  have hlow := t.seconds_inRange.1
  have hnotZero : ¬ (t.isLeap ∧ Span.longest.seconds = 0 ∧
      t.nanos + Span.longest.nanos < 2 * nanosPerSecond) := fun h => by cases h.2.1
  rw [later?, if_neg hnotZero]
  apply of?_eq_none_of_gt
  generalize (t.nanos % nanosPerSecond + Span.longest.nanos) / nanosPerSecond = carry
  simp only [earliest, latest, Span.longest] at hlow ⊢
  omega

theorem later?_whole (t : Instant) {n : Nat} (h : 0 < Instant.nanosPerSecond) :
    t.later? ⟨n, 0, h⟩ = t.addSeconds? n := by
  have hnanos := t.nanos_lt
  by_cases hzero : n = 0
  · subst hzero
    rw [addSeconds?_zero, later?]
    split
    · exact t.of?_self
    · next hordinary =>
        have hwhole : t.nanos < nanosPerSecond := by
          by_contra hleap
          exact hordinary ⟨by simpa [isLeap] using hleap, rfl, hnanos⟩
        simpa [Nat.mod_eq_of_lt hwhole, Nat.div_eq_of_lt hwhole] using t.of?_self
  · rw [addSeconds?_of_ne_zero t hzero]
    simp [later?, hzero, Nat.div_eq_of_lt t.fraction_lt]

/-- The span of a number of seconds leads where that many seconds lead, also when it is too short
for them. -/
theorem later?_ofTtl (t : Instant) (ttl : Nat) : t.later? (.ofTtl ttl) = t.addSeconds? ttl := by
  by_cases hshort : ttl ≤ Span.longest.seconds
  · rw [Span.ofTtl_of_le hshort, later?_whole]
  · have hlong := Nat.lt_of_not_le hshort
    have hout := latest_lt_of_longest_lt hlong t
    rw [Span.ofTtl_of_gt hlong, later?_longest, (addSeconds?_eq_none_iff t ttl).mpr hout]

theorem later?_ofTtl_eq_none_iff (t : Instant) (ttl : Nat) :
    t.later? (.ofTtl ttl) = none ↔ latest < t.seconds + ttl := by
  rw [later?_ofTtl, addSeconds?_eq_none_iff]

/-! ## What is shown of a lifetime -/

theorem seconds_shown_of_lt {t : Instant} (h : t.nanos < nanosPerSecond) :
    t.shown.seconds = t.seconds := by
  rw [shown_of_endsMinute (endsMinute_of_lt h)]
  rfl

theorem nanos_shown_of_lt {t : Instant} (h : t.nanos < nanosPerSecond) : t.shown.nanos = 0 := by
  rw [shown_of_endsMinute (endsMinute_of_lt h)]
  simp [truncate, isLeap, h]

variable {t last : Instant} {ttl : Nat}

/-- Whole seconds lead from what is shown of an instant to what is shown of the one behind them. -/
theorem later?_shown (hlast : t.later? (.ofTtl ttl) = some last) (h : t.EndsMinute ∨ ttl = 0) :
    t.shown.later? (.ofTtl ttl) = some last.shown := by
  rw [later?_ofTtl] at hlast ⊢
  by_cases hzero : ttl = 0
  · subst hzero
    cases hlast
    rfl
  · have hends : t.EndsMinute := h.resolve_right hzero
    rw [addSeconds?_of_ne_zero _ hzero] at hlast ⊢
    obtain ⟨hseconds, hnanos⟩ := eq_of_of? hlast
    have hordinary : last.nanos < nanosPerSecond := hnanos ▸ t.fraction_lt
    apply of?_eq_some
    · rw [seconds_shown_of_lt hordinary, hseconds, shown_of_endsMinute hends]
      rfl
    · rw [nanos_shown_of_lt hordinary, shown_of_endsMinute hends, fraction_truncate]

/-- From what is shown of a leap second that ends no minute it takes a second less, since it is the
second behind it. -/
theorem later?_shown_of_not_endsMinute (hlast : t.later? (.ofTtl ttl) = some last)
    (h : ¬ t.EndsMinute) (hzero : ttl ≠ 0) :
    t.shown.later? (.ofTtl (ttl - 1)) = some last.shown := by
  obtain ⟨-, -, hnext, hwhole⟩ := shown_of_not_endsMinute h
  rw [later?_ofTtl, addSeconds?_of_ne_zero _ hzero] at hlast
  obtain ⟨hseconds, hnanos⟩ := eq_of_of? hlast
  have hordinary : last.nanos < nanosPerSecond := hnanos ▸ t.fraction_lt
  rw [later?_ofTtl, addSeconds?_of_lt (by rw [hwhole]; decide)]
  apply of?_eq_some
  · rw [seconds_shown_of_lt hordinary, hseconds, hnext]
    omega
  · rw [nanos_shown_of_lt hordinary, hwhole]

end Instant

end TopicBroker
