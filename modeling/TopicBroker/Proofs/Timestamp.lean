import TopicBroker.Message
import TopicBroker.Proofs.Action
import TopicBroker.Proofs.Calendar
import TopicBroker.Proofs.Text.Digits

/-! # Timestamps are read back

The timestamp of an instant is read as the instant that it shows: the one without its fraction of a
second. So a timestamp that is read, in whatever form, and written again means the same as before. -/

namespace TopicBroker

/-! ## Blanks around digits -/

namespace Text

theorem isBlank_of_isDigit {c : Char} (h : c.isDigit = true) : isBlank c = false := by
  have hc := toNat_of_isDigit h
  simp only [isBlank, Bool.or_eq_false_iff, Bool.and_eq_false_iff, decide_eq_false_iff_not,
    beq_eq_false_iff_ne]
  omega

theorem trimStart_cons {c : Char} (h : isBlank c = false) (cs : List Char) :
    trimStart (c :: cs) = c :: cs := by
  simp [trimStart, h]

theorem trimStart_of_isBlank {c : Char} (h : isBlank c = true) (cs : List Char) :
    trimStart (c :: cs) = trimStart cs := by
  simp [trimStart, h]

theorem trimEnd_concat {c : Char} (h : isBlank c = false) (cs : List Char) :
    trimEnd (cs ++ [c]) = cs ++ [c] := by
  simp [trimEnd, h]

theorem padded_ne_nil (width n : Nat) : padded width n ≠ [] := by
  simp [padded, digits, Nat.toDigits_ne_nil]

theorem exists_padded_eq_cons (width n : Nat) :
    ∃ c cs, padded width n = c :: cs ∧ c.isDigit = true := by
  cases hpadded : padded width n with
  | nil => exact absurd hpadded (padded_ne_nil width n)
  | cons c cs => exact ⟨c, cs, rfl, isDigit_of_mem_padded (by rw [hpadded]; exact .head cs)⟩

theorem exists_padded_eq_concat (width n : Nat) :
    ∃ cs c, padded width n = cs ++ [c] ∧ c.isDigit = true := by
  have hlast := List.dropLast_concat_getLast (padded_ne_nil width n)
  exact ⟨_, _, hlast.symm, isDigit_of_mem_padded (List.getLast_mem _)⟩

@[simp] theorem trimStart_padded (width n : Nat) (rest : List Char) :
    trimStart (padded width n ++ rest) = padded width n ++ rest := by
  obtain ⟨c, cs, hpadded, hc⟩ := exists_padded_eq_cons width n
  rw [hpadded, List.cons_append, trimStart_cons (isBlank_of_isDigit hc)]

end Text

/-! ## What a timestamp shows -/

namespace Instant

/-- A leap second, should the instant lie in one, ends its minute. No timestamp shows any other. -/
def EndsMinute (t : Instant) : Prop :=
  t.isLeap = true → t.seconds % 60 = 59

instance (t : Instant) : Decidable t.EndsMinute :=
  inferInstanceAs (Decidable (_ → _))

/-- The last second of the range ends its minute. -/
theorem next_inRange {t : Instant} (h : ¬ t.EndsMinute) :
    earliest ≤ t.seconds + 1 ∧ t.seconds + 1 ≤ latest := by
  have hrange := t.seconds_inRange
  have hminute : t.seconds % 60 ≠ 59 := fun e => h fun _ => e
  simp only [earliest, latest] at hrange ⊢
  omega

theorem zero_lt_twoSeconds : 0 < 2 * nanosPerSecond := by
  decide

/-- The instant that the timestamp of an instant shows, which has no fraction of a second. A leap
second that ends no minute is shown as the second behind it. -/
def shown (t : Instant) : Instant :=
  if h : t.EndsMinute then t.truncate
  else
    { seconds := t.seconds + 1
      nanos := 0
      seconds_inRange := next_inRange h
      nanos_lt := zero_lt_twoSeconds }

theorem shown_of_endsMinute {t : Instant} (h : t.EndsMinute) : t.shown = t.truncate :=
  dif_pos h

/-- What is shown in place of a leap second that ends no minute. -/
theorem shown_of_not_endsMinute {t : Instant} (h : ¬ t.EndsMinute) :
    t.isLeap = true ∧ t.seconds % 60 ≠ 59 ∧ t.shown.seconds = t.seconds + 1 ∧ t.shown.nanos = 0 := by
  obtain ⟨hleap, hminute⟩ := Classical.not_imp.mp h
  exact ⟨hleap, hminute, by rw [shown, dif_neg h], by rw [shown, dif_neg h]⟩

theorem nanos_div (t : Instant) : t.nanos / nanosPerSecond = if t.isLeap = true then 1 else 0 := by
  have hnanos := t.nanos_lt
  by_cases hleap : nanosPerSecond ≤ t.nanos
  · have hone : t.nanos / nanosPerSecond = 1 :=
      Nat.div_eq_of_lt_le (by omega) (by omega)
    simp [isLeap, hleap, hone]
  · have hzero : t.nanos / nanosPerSecond = 0 := Nat.div_eq_of_lt (Nat.lt_of_not_le hleap)
    simp [isLeap, hleap, hzero]

theorem truncate_of_whole {t : Instant} (h : t.nanos = 0 ∨ t.nanos = nanosPerSecond) :
    t.truncate = t := by
  cases t
  rcases h with rfl | rfl <;> simp [truncate, isLeap, nanosPerSecond]

theorem of?_eq_some {t : Instant} {seconds : Int} {nanos : Nat} (hseconds : seconds = t.seconds)
    (hnanos : nanos = t.nanos) : of? seconds nanos = some t := by
  subst hseconds hnanos
  exact dif_pos ⟨t.seconds_inRange, t.nanos_lt⟩

theorem eq_of_of? {t : Instant} {seconds : Int} {nanos : Nat} (h : of? seconds nanos = some t) :
    t.seconds = seconds ∧ t.nanos = nanos := by
  unfold of? at h
  split at h
  · cases h
    exact ⟨rfl, rfl⟩
  · cases h

theorem endsMinute_of_lt {t : Instant} (h : t.nanos < nanosPerSecond) : t.EndsMinute := by
  simp [EndsMinute, isLeap, Nat.not_le_of_lt h]

/-- The year of an instant is of no more digits than a timestamp allows. -/
theorem year_inRange (t : Instant) :
    -2147483648 ≤ (Date.ofDays (t.seconds / 86400)).year ∧
      (Date.ofDays (t.seconds / 86400)).year ≤ 2147483647 := by
  obtain ⟨hlow, hhigh⟩ := t.seconds_inRange
  obtain ⟨hbefore, hafter⟩ := Date.year_ofDays (t.seconds / 86400)
  simp only [earliest, latest, Date.epochOffset, Date.daysPerCycle] at hlow hhigh hbefore hafter
  omega

end Instant

namespace Timestamp

open Text

/-! ## Reading what is written -/

/-- Digits are read up to the width, or up to the first character that is none. -/
theorem readDigits_append {width : Nat} {ds rest : List Char} (hne : ds ≠ [])
    (hds : ∀ c ∈ ds, c.isDigit = true) (hwidth : ds.length ≤ width)
    (hrest : ds.length = width ∨ ∀ c ∈ rest.head?, c.isDigit = false) :
    readDigits width (ds ++ rest) = .ok (value ds, rest) := by
  have hrun : ((ds ++ rest).take width).takeWhile Char.isDigit = ds := by
    rw [List.take_append, List.take_of_length_le hwidth, List.takeWhile_append_of_pos hds]
    rcases hrest with hlength | hhead
    · simp [hlength]
    · cases rest with
      | nil => simp
      | cons c cs =>
          have hc := hhead c rfl
          cases width - ds.length <;> simp [hc]
  cases ds with
  | nil => exact absurd rfl hne
  | cons c cs =>
      have hc := hds c List.mem_cons_self
      rw [readDigits.eq_def]
      simp only [List.cons_append, hc, if_true] at hrun ⊢
      rw [hrun]
      simp

theorem readField_padded {low high n : Nat} (h : low ≤ n ∧ n ≤ high) (hn : n < 100)
    (rest : List Char) : readField low high (padded 2 n ++ rest) = .ok (n, rest) := by
  have hlength : (padded 2 n).length = 2 := length_padded (by decide) hn
  have hread : readDigits 2 (padded 2 n ++ rest) = .ok (n, rest) := by
    rw [readDigits_append (padded_ne_nil 2 n) (fun _ => isDigit_of_mem_padded) hlength.le
      (.inl hlength), value_padded]
  rw [readField, trimStart_padded, hread]
  exact if_pos h

@[simp] theorem readMark_self (mark : Char) (rest : List Char) :
    readMark mark (mark :: rest) = .ok rest :=
  if_pos rfl

/-- All digits of a year are read as long as the width allows it. -/
theorem readDigits_year {width n : Nat} (h : (padded 4 n).length ≤ width) (rest : List Char) :
    readDigits width (padded 4 n ++ '-' :: rest) = .ok (n, '-' :: rest) := by
  have hmark : ∀ c ∈ ('-' :: rest).head?, c.isDigit = false := by simp
  rw [readDigits_append (padded_ne_nil 4 n) (fun _ => isDigit_of_mem_padded) h (.inr hmark),
    value_padded]

theorem readYear_yearText {year : Int} (h : -2147483648 ≤ year ∧ year ≤ 2147483647)
    (rest : List Char) : readYear (yearText year ++ '-' :: rest) = .ok (year, '-' :: rest) := by
  have hlong : (padded 4 year.natAbs).length ≤ (padded 4 year.natAbs ++ '-' :: rest).length := by
    simp
  have hread := readDigits_year hlong rest
  unfold yearText
  by_cases hneg : year < 0
  · have hyear : -(year.natAbs : Int) = year := by omega
    rw [if_pos hneg, List.cons_append, readYear, trimStart_cons (by decide)]
    simp only [hread, Except.map, ok_bind, hyear, h, and_self, if_true]
  · have hyear : (year.natAbs : Int) = year := by omega
    rw [if_neg hneg]
    by_cases hshort : year ≤ 9999
    · -- without a sign only four digits are read, which are all there are
      have hlength : (padded 4 year.natAbs).length = 4 := length_padded (by decide) (by omega)
      have hread := readDigits_year hlength.le rest
      rw [if_pos hshort, readYear, trimStart_padded]
      obtain ⟨c, cs, hpadded, hc⟩ := exists_padded_eq_cons 4 year.natAbs
      rw [hpadded, List.cons_append] at hread ⊢
      split
      · next hminus => simp_all
      · next hplus => simp_all
      · simp only [hread, Except.map, ok_bind, hyear, h, and_self, if_true]
    · rw [if_neg hshort, List.cons_append, readYear, trimStart_cons (by decide)]
      simp only [hread, Except.map, ok_bind, hyear, h, and_self, if_true]

/-- The text of a date and a time of day. -/
def fields (date : Date) (hour minute second : Nat) : List Char :=
  yearText date.year ++ '-' :: padded 2 date.month ++ '-' :: padded 2 date.day ++
    ' ' :: padded 2 hour ++ ':' :: padded 2 minute ++ ':' :: padded 2 second

theorem trimStart_yearText (year : Int) (rest : List Char) :
    trimStart (yearText year ++ rest) = yearText year ++ rest := by
  unfold yearText
  split
  · exact trimStart_cons (by decide) _
  · split
    · exact trimStart_padded 4 _ rest
    · exact trimStart_cons (by decide) _

theorem trim_fields (date : Date) (hour minute second : Nat) :
    trim (fields date hour minute second) = fields date hour minute second := by
  have hstart : trimStart (fields date hour minute second) = fields date hour minute second := by
    simp only [fields, List.append_assoc, List.cons_append, trimStart_yearText]
  obtain ⟨front, last, hlast, hdigit⟩ := exists_padded_eq_concat 2 second
  have hconcat : ∃ cs, fields date hour minute second = cs ++ [last] := by
    rw [fields, hlast, ← List.cons_append, ← List.append_assoc]
    exact ⟨_, rfl⟩
  obtain ⟨cs, hcs⟩ := hconcat
  rw [trim, hstart, hcs, trimEnd_concat (isBlank_of_isDigit hdigit)]

theorem readInstant_fields {date : Date} {hour minute second : Nat}
    (hyear : -2147483648 ≤ date.year ∧ date.year ≤ 2147483647) (hdate : date.isValid = true)
    (hhour : hour ≤ 23) (hminute : minute ≤ 59) (hsecond : second ≤ 60) :
    readInstant (fields date hour minute second) =
      (instant? date hour minute second).elim (.error .outOfRange) .ok := by
  obtain ⟨hmonth, hday⟩ := Date.isValid_iff.mp hdate
  have hdays : 1 ≤ date.day ∧ date.day ≤ 31 :=
    ⟨hday.1, hday.2.trans (Date.daysInMonth_le date.year date.month)⟩
  have hlast := readField_padded ⟨Nat.zero_le second, hsecond⟩ (by omega) []
  rw [List.append_nil] at hlast
  simp only [readInstant, fields, List.append_assoc, List.cons_append, readYear_yearText hyear,
    ok_bind, readMark_self, readField_padded hmonth (by omega), readField_padded hdays (by omega),
    trimStart_of_isBlank (c := ' ') (by decide), trimStart_padded,
    readField_padded ⟨Nat.zero_le hour, hhour⟩ (by omega),
    readField_padded ⟨Nat.zero_le minute, hminute⟩ (by omega), hlast]
  rfl

/-! ## Reading what is shown -/

/-- The instant of the date and the time of day that a timestamp has. -/
theorem instant?_shown (t : Instant) :
    let ofDay := (t.seconds % 86400).toNat
    instant? (Date.ofDays (t.seconds / 86400)) (ofDay / 3600) (ofDay / 60 % 60)
      (ofDay % 60 + t.nanos / Instant.nanosPerSecond) = some t.shown := by
  intro ofDay
  have hofDay : (ofDay : Int) = t.seconds % 86400 := by omega
  rw [instant?, if_pos (Date.isValid_ofDays _), Date.toDays_ofDays, t.nanos_div]
  -- the second is written as 60 only for a leap second that ends its minute
  by_cases hends : t.EndsMinute
  · rw [Instant.shown_of_endsMinute hends]
    by_cases hleap : t.isLeap = true
    · have hlast : ofDay % 60 = 59 := by
        have hminute := hends hleap
        omega
      rw [if_pos hleap, hlast]
      apply Instant.of?_eq_some
      · simp only [Instant.truncate]
        omega
      · simp [Instant.truncate, hleap]
    · have hordinary : ofDay % 60 + 0 ≠ 60 := by omega
      rw [if_neg hleap, if_neg hordinary]
      apply Instant.of?_eq_some
      · simp only [Instant.truncate]
        omega
      · simp [Instant.truncate, hleap]
  · obtain ⟨hleap, hminute, hseconds, hnanos⟩ := Instant.shown_of_not_endsMinute hends
    have hordinary : ofDay % 60 + 1 ≠ 60 := by omega
    rw [if_pos hleap, if_neg hordinary]
    apply Instant.of?_eq_some
    · rw [hseconds]
      omega
    · rw [hnanos]

theorem parse_format (t : Instant) : parse (format t) = .ok t.shown := by
  have hread : readInstant (trim (format t).toList) = .ok t.shown := by
    have hnanos := t.nanos_lt
    change readInstant (trim (String.toList (String.ofList (fields _ _ _ _)))) = _
    rw [String.toList_ofList, trim_fields, readInstant_fields t.year_inRange (Date.isValid_ofDays _)]
    · rw [instant?_shown]
      rfl
    · omega
    · omega
    · simp only [Instant.nanosPerSecond] at hnanos ⊢
      omega
  rw [parse, hread]

/-- Whatever the form in which it was written, what has been read is made of a date and a time. -/
theorem exists_instant?_of_readInstant {cs : List Char} {t : Instant} (h : readInstant cs = .ok t) :
    ∃ date hour minute second, instant? date hour minute second = some t := by
  obtain ⟨⟨year, _⟩, -, h⟩ := exists_of_bind_eq_ok h
  obtain ⟨_, -, h⟩ := exists_of_bind_eq_ok h
  obtain ⟨⟨month, _⟩, -, h⟩ := exists_of_bind_eq_ok h
  obtain ⟨_, -, h⟩ := exists_of_bind_eq_ok h
  obtain ⟨⟨day, _⟩, -, h⟩ := exists_of_bind_eq_ok h
  obtain ⟨⟨hour, _⟩, -, h⟩ := exists_of_bind_eq_ok h
  obtain ⟨_, -, h⟩ := exists_of_bind_eq_ok h
  obtain ⟨⟨minute, _⟩, -, h⟩ := exists_of_bind_eq_ok h
  obtain ⟨_, -, h⟩ := exists_of_bind_eq_ok h
  obtain ⟨⟨second, rest⟩, -, h⟩ := exists_of_bind_eq_ok h
  dsimp only at h
  refine ⟨⟨year, month, day⟩, hour, minute, second, ?_⟩
  split at h
  · cases hinstant : instant? ⟨year, month, day⟩ hour minute second with
    | none => simp [hinstant] at h
    | some instant => simpa [hinstant] using h
  · cases h

theorem exists_instant?_of_parse {raw : String} {t : Instant} (h : parse raw = .ok t) :
    ∃ date hour minute second, instant? date hour minute second = some t := by
  unfold parse at h
  split at h
  · next instant hread =>
      cases h
      exact exists_instant?_of_readInstant hread
  · cases h

/-- What the calendar and the clock have is without a fraction of a second, and a leap second of
theirs ends its minute. -/
theorem whole_of_instant? {date : Date} {hour minute second : Nat} {t : Instant}
    (h : instant? date hour minute second = some t) :
    t.EndsMinute ∧ (t.nanos = 0 ∨ t.nanos = Instant.nanosPerSecond) := by
  unfold instant? at h
  split at h
  · obtain ⟨hseconds, hnanos⟩ := Instant.eq_of_of? h
    by_cases hleap : second = 60
    · rw [if_pos hleap] at hnanos
      exact ⟨fun _ => by omega, .inr hnanos⟩
    · rw [if_neg hleap] at hnanos
      exact ⟨Instant.endsMinute_of_lt (by rw [hnanos]; decide), .inl hnanos⟩
  · cases h

/-- What has been read shows itself. -/
theorem shown_of_parse {raw : String} {t : Instant} (h : parse raw = .ok t) : t.shown = t := by
  obtain ⟨date, hour, minute, second, hinstant⟩ := exists_instant?_of_parse h
  obtain ⟨hends, hwhole⟩ := whole_of_instant? hinstant
  rw [Instant.shown_of_endsMinute hends, Instant.truncate_of_whole hwhole]

theorem endsMinute_of_parse {raw : String} {t : Instant} (h : parse raw = .ok t) :
    t.EndsMinute := by
  obtain ⟨date, hour, minute, second, hinstant⟩ := exists_instant?_of_parse h
  exact (whole_of_instant? hinstant).1

/-! ## Setting a timestamp out again -/

/-- The timestamp of an instant shows the instant without its fraction of a second, or the second
behind a leap second that ends no minute. Setting out what has been read changes neither the instant
nor, a second time, the text, and so a message expires at the same time as before. -/
theorem format_keeps_meaning :
    (∀ t : Instant, parse (format t) = .ok t.shown ∧ (t.EndsMinute → t.shown = t.truncate) ∧
      (¬ t.EndsMinute → t.shown.seconds = t.seconds + 1 ∧ t.shown.nanos = 0)) ∧
      ∀ (raw : String) (t : Instant), parse raw = .ok t →
        parse (format t) = .ok t ∧ (parse (format t)).map format = .ok (format t) ∧
          ∀ (message : Message) (now : Instant), message.expiresAt = raw →
            { message with expiresAt := format t }.isExpiredAt now = message.isExpiredAt now := by
  constructor
  · intro t
    exact ⟨parse_format t, Instant.shown_of_endsMinute,
      fun hends => (Instant.shown_of_not_endsMinute hends).2.2⟩
  · intro raw t hparse
    have hagain : parse (format t) = .ok t := by rw [parse_format, shown_of_parse hparse]
    refine ⟨hagain, by rw [hagain]; rfl, ?_⟩
    intro message now hraw
    simp only [Message.isExpiredAt, hraw, hparse, hagain]

/-- The leap second after 20:03:59 on 27 February 12021. -/
def wideLeap : Instant := ⟨317183976239, 1000000000, by decide, by decide⟩

theorem format_keeps_meaning_wideLeap :
    wideLeap.EndsMinute ∧ parse " +12021-2-27  20:3:60 " = .ok wideLeap ∧
      parse (format wideLeap) = .ok wideLeap.truncate ∧ parse (format wideLeap) = .ok wideLeap ∧
      ∀ now, Message.isExpiredAt ⟨"", "", "", format wideLeap⟩ now =
        Message.isExpiredAt ⟨"", "", "", " +12021-2-27  20:3:60 "⟩ now := by
  have hends : wideLeap.EndsMinute := by decide
  have hparse : parse " +12021-2-27  20:3:60 " = .ok wideLeap := by rfl
  obtain ⟨hread, hshown, -⟩ := format_keeps_meaning.1 wideLeap
  obtain ⟨hagain, -, hexpired⟩ := format_keeps_meaning.2 _ _ hparse
  refine ⟨hends, hparse, ?_, hagain, ?_⟩
  · rw [hread, hshown hends]
  · exact fun now => hexpired ⟨"", "", "", " +12021-2-27  20:3:60 "⟩ now rfl

/-- The middle of a leap second after 00:00:30 on 1 January 1970, where no minute ends. -/
def midMinute : Instant := ⟨30, 1500000000, by decide, by decide⟩

/-- It is not read back without its fraction of a second, but as the second behind it. -/
theorem not_truncated_midMinute :
    midMinute.truncate.seconds = 30 ∧ midMinute.truncate.nanos = 1000000000 ∧
      format midMinute = "1970-01-01 00:00:31" ∧
      parse (format midMinute) ≠ .ok midMinute.truncate ∧
      ∃ read, parse (format midMinute) = .ok read ∧ read.seconds = 31 ∧ read.nanos = 0 := by
  have hread : parse (format midMinute) = .ok midMinute.shown := parse_format midMinute
  refine ⟨rfl, rfl, by decide +kernel, ?_, midMinute.shown, hread, by decide, by decide⟩
  rw [hread]
  intro heq
  exact absurd (Except.ok.inj heq) (by decide)

end Timestamp

end TopicBroker
