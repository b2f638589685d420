import Smqueue.TimeStamp
import Smqueue.Lib.Proofs.CalendarProofs
import Smqueue.Proofs.PduLayoutProofs
import Smqueue.Proofs.SubmitProofs

/-!
# Proofs: time stamps

The writer writes the local time of the instant. The parser reads a bit more than was written, and takes
the year of the era and the month counted from one for a year counted from 1900 and a month counted from
zero, which puts every time stamp into the fourth millennium.
-/

namespace Smqueue

variable {src : List Bool} {p q : Nat} {seconds gmtoff : Int} {mType : TimeType}

/-! ## The conversions -/

theorem timegm_ofCivil (n : Nat) (off : Int) :
    timegm (Tm.ofCivil (Calendar.ofSeconds n) off) = n := by
  have h := Calendar.ofSeconds_year n
  have hmonth := Calendar.ofSeconds_month n
  have hyear : 1900 + ((Calendar.ofSeconds n).year - 1900) + (Calendar.ofSeconds n).month / 12 =
      (Calendar.ofSeconds n).year := by omega
  unfold timegm Tm.ofCivil
  dsimp only
  rw [hyear, Nat.mod_eq_of_lt hmonth]
  exact Calendar.seconds_ofSeconds n

/-- The fields that are written are those of the time. -/
theorem timegm_gmtime (h : 0 ≤ seconds) : timegm (gmtime seconds) = seconds := by
  rw [gmtime, timegm_ofCivil]
  exact Int.toNat_of_nonneg h

theorem timegm_localtime (h : 0 ≤ seconds + gmtoff) :
    timegm (localtime gmtoff seconds) - gmtoff = seconds := by
  rw [localtime, timegm_ofCivil, Int.toNat_of_nonneg h]
  omega

/-- A year is a lower bound for the time, whatever the other fields are. -/
theorem le_timegm {fields : Tm} {year : Nat} (h : year ≤ fields.year) (hyear : 70 ≤ year) :
    (365 * ((year - 70 : Nat) : Int) - 1) * 86400 ≤ timegm fields := by
  have hle := Calendar.le_seconds ⟨1900 + fields.year + fields.mon / 12, fields.mon % 12, fields.mday,
    fields.hour, fields.min, fields.sec⟩
  unfold timegm
  refine Int.le_trans ?_ hle
  dsimp only
  omega

/-! ## Reading -/

namespace L3TimeZoneAndTime

theorem parseV_year {fields : Tm} (h : parseV src p = .ok (fields, q)) : 2000 ≤ fields.year := by
  unfold parseV at h
  obtain ⟨_, _, -, h⟩ := Frame.bind_ok.1 h
  obtain ⟨_, _, -, h⟩ := Frame.bind_ok.1 h
  obtain ⟨_, _, -, h⟩ := Frame.bind_ok.1 h
  obtain ⟨_, _, -, h⟩ := Frame.bind_ok.1 h
  obtain ⟨_, _, -, h⟩ := Frame.bind_ok.1 h
  obtain ⟨_, _, -, h⟩ := Frame.bind_ok.1 h
  obtain ⟨_, h⟩ := readField_bind_ok.1 h
  obtain ⟨_, h⟩ := readField_bind_ok.1 h
  obtain ⟨_, h⟩ := readField_bind_ok.1 h
  obtain ⟨rfl, -⟩ := pure_ok.1 h
  dsimp only
  omega

/-- Whatever is read, it is a time after the year 3899, and 57 bits are taken for it. -/
theorem parseTime_ok {t : Int} (h : parseTime src p = .ok (t, q)) :
    (365 * 1930 - 1) * 86400 ≤ t ∧ q = p + 57 := by
  obtain ⟨fields, p', hparse, h⟩ := Frame.bind_ok.1 h
  obtain ⟨rfl, rfl⟩ := pure_ok.1 h
  have hlate : (365 * ((2000 - 70 : Nat) : Int) - 1) * 86400 ≤ timegm fields :=
    le_timegm (parseV_year hparse) (by decide)
  exact ⟨by omega, time_ok hparse⟩

/-! ## Reading what was written -/

theorem writeTime_writes (mType : TimeType) (gmtoff seconds : Int) :
    Frame.Writes (writeTime mType gmtoff seconds) ((written mType gmtoff seconds).map some) :=
  time_writes _

theorem written_length (mType : TimeType) (gmtoff seconds : Int) :
    (written mType gmtoff seconds).length = 56 := Tm.bits_length _

/-- A time before the year 2100 takes 56 bits. Neither it nor the end of its bits is found again. -/
theorem not_reread (mType : TimeType) (gmtoff seconds : Int) (pre rest : List Bool)
    (hs : seconds < 4102444800) :
    Frame.Writes (writeTime mType gmtoff seconds) ((written mType gmtoff seconds).map some) ∧
      (written mType gmtoff seconds).length = 56 ∧
      (∀ q, reread mType gmtoff seconds pre rest ≠ .ok (seconds, q)) ∧
      ∀ t, reread mType gmtoff seconds pre rest ≠ .ok (t, pre.length + 56) := by
  refine ⟨writeTime_writes mType gmtoff seconds, written_length mType gmtoff seconds, ?_, ?_⟩
  · intro q h
    have hlate := (parseTime_ok h).1
    omega
  · intro t h
    have hend := (parseTime_ok h).2
    omega

/-- Noon of the sixth of August 2012 in a zone two hours ahead. -/
theorem not_reread_noon : Frame.Writes (writeTime .localTime 7200 1344247200)
      ((written .localTime 7200 1344247200).map some) ∧
    (written .localTime 7200 1344247200).length = 56 ∧
    (∀ q, reread .localTime 7200 1344247200 [] [false] ≠ .ok (1344247200, q)) ∧
    ∀ t, reread .localTime 7200 1344247200 [] [false] ≠ .ok (t, 56) :=
  not_reread .localTime 7200 1344247200 [] [false] (by decide)

/-- It is read back as a time of the year 3912, a bit behind its end. -/
theorem not_reread_all : ¬ ∀ (mType : TimeType) (gmtoff seconds : Int) (pre rest : List Bool),
    gmtoff % 900 = 0 → -50400 ≤ gmtoff → gmtoff ≤ 50400 → 946684800 ≤ seconds →
      seconds < 4102444800 →
        reread mType gmtoff seconds pre rest = .ok (seconds, pre.length + 56) := by
  intro h
  have hread := h .localTime 7200 1344247200 [] [false] (by decide) (by decide) (by decide)
    (by decide) (by decide)
  have hyear : reread .localTime 7200 1344247200 [] [false] = .ok (61307668800, 57) := by
    decide +kernel
  rw [hyear] at hread
  cases hread

end L3TimeZoneAndTime

end Smqueue
