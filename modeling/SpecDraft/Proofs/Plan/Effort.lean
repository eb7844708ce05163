import Mathlib.Order.Bounds.Basic
import SpecDraft.Proofs.Json.Characters
import SpecDraft.Proofs.Number.Quotient
import SpecDraft.Proofs.Plan.Chain

/-!
# Estimates of effort

The estimate of a plan tells a duration that covers the hours of its tasks and is the shortest one
of its unit to do so (`Effort.Covers`). It is read off the text alone, since no other duration makes
the same text (`Effort.tells_layout`). More hours never make a shorter duration
(`Effort.Covers.inDays_le`), also where days give way to weeks: forty hours are five days, and what
covers more is two weeks at least.

The hours of a plan are whole, so that their quotients are taken exactly. Rounding the quotients to
binary64 makes no difference for all the hours that binary64 numbers tell apart
(`Effort.ofQuantity_whole`).
-/
set_option autoImplicit false

namespace SpecDraft.Effort

/-! ## Covering hours -/

theorem covering_le_iff {size : Nat} (hsize : 0 < size) {hours count : Nat} :
    covering size hours ≤ count ↔ hours ≤ size * count := by
  rw [covering, Nat.div_le_iff_le_mul_add_pred hsize]
  omega

theorem isLeast_covering {size : Nat} (hsize : 0 < size) (hours : Nat) :
    IsLeast {count | hours ≤ size * count} (covering size hours) :=
  ⟨(covering_le_iff hsize).mp (Nat.le_refl _), fun _ => (covering_le_iff hsize).mpr⟩

/-- A duration covers some hours: a day of up to eight hours, or the least count of eight-hour days
up to forty hours, or the least count of forty-hour weeks beyond. -/
inductive Covers (hours : Nat) : Duration → Prop where
  | oneDay : hours ≤ 8 → Covers hours .oneDay
  | days {count : Nat} : 8 < hours → hours ≤ 40 → IsLeast {n | hours ≤ 8 * n} count →
      Covers hours (.days count)
  | weeks {count : Nat} : 40 < hours → IsLeast {n | hours ≤ 40 * n} count →
      Covers hours (.weeks count)

theorem covers_durationOf (hours : Nat) : Covers hours (durationOf hours) := by
  unfold durationOf
  by_cases hday : hours ≤ 8
  · rw [if_pos hday]
    exact .oneDay hday
  rw [if_neg hday]
  by_cases hdays : hours ≤ 40
  · rw [if_pos hdays]
    exact .days (by omega) hdays (isLeast_covering (by decide) hours)
  · rw [if_neg hdays]
    exact .weeks (by omega) (isLeast_covering (by decide) hours)

/-- How many days a duration has, of which five make a week. -/
def Duration.inDays : Duration → Int
  | .oneDay => 1
  | .days count => count
  | .weeks count => 5 * count

section Covers
variable {a b : Nat} {shorter longer : Duration}

theorem Covers.two_le_weeks {count : Int} (h : Covers a (.weeks count)) : 2 ≤ count := by
  cases h with
  | weeks hmany hleast =>
    have hcovered : a ≤ 40 * _ := hleast.1
    omega

/-- **More hours never make a shorter duration.** -/
theorem Covers.inDays_le (ha : Covers a shorter) (hb : Covers b longer) (h : a ≤ b) :
    shorter.inDays ≤ longer.inDays := by
  cases ha with
  | oneDay hday =>
    cases hb with
    | oneDay => exact Int.le_refl 1
    | days hover _ hleast =>
      have hcovered : b ≤ 8 * _ := hleast.1
      simp only [Duration.inDays]
      omega
    | weeks hover hleast =>
      have hcovered : b ≤ 40 * _ := hleast.1
      simp only [Duration.inDays]
      omega
  | days hover hdays hleast =>
    cases hb with
    | oneDay hday => omega
    | days _ _ hlater =>
      -- What covers more hours covers these, and the shorter count is the least that does.
      exact Int.ofNat_le.mpr (hleast.2 (Nat.le_trans h hlater.1))
    | weeks hmany hlater =>
      have hfive := hleast.2 (show a ≤ 8 * 5 from hdays)
      have hcovered : b ≤ 40 * _ := hlater.1
      simp only [Duration.inDays]
      omega
  | weeks hmany hleast =>
    cases hb with
    | oneDay hday => omega
    | days _ hdays _ => omega
    | weeks _ hlater =>
      have hcount := hleast.2 (Nat.le_trans h hlater.1)
      simp only [Duration.inDays]
      omega

end Covers

/-! ## What a text tells -/

/-- Two lists that are cut where an element stands for the first time. -/
theorem eq_of_append_cons {α : Type} {c : α} {a a' b b' : List α} (ha : c ∉ a) (ha' : c ∉ a')
    (h : a ++ c :: b = a' ++ c :: b') : a = a' ∧ b = b' := by
  rcases List.append_eq_append_iff.mp h with ⟨more, rfl, hmore⟩ | ⟨more, rfl, hmore⟩
  · cases more with
    | nil => exact ⟨(List.append_nil a).symm, (List.cons.inj hmore).2⟩
    | cons d more =>
      obtain ⟨rfl, -⟩ := List.cons.inj hmore
      exact absurd (List.mem_append_right a List.mem_cons_self) ha'
  · cases more with
    | nil => exact ⟨List.append_nil a', (List.cons.inj hmore).2.symm⟩
    | cons d more =>
      obtain ⟨rfl, -⟩ := List.cons.inj hmore
      exact absurd (List.mem_append_right a' List.mem_cons_self) ha

namespace Duration

/-- The number in the text of a duration. -/
def count : Duration → Int
  | oneDay => 1
  | days count => count
  | weeks count => count

/-- The word in the text of a duration. -/
def unit : Duration → String
  | oneDay => "day"
  | days _ => "days"
  | weeks count => if count = 1 then "week" else "weeks"

/-- The duration of a number and a word. -/
def ofParts (count : Int) (unit : String) : Duration :=
  if unit = "day" then oneDay else if unit = "days" then days count else weeks count

theorem ofParts_parts (duration : Duration) : ofParts duration.count duration.unit = duration := by
  cases duration with
  | oneDay => rfl
  | days count => rfl
  | weeks count =>
    rw [unit]
    split <;> rfl

theorem toList_text (duration : Duration) :
    duration.text.toList = Json.Printer.int duration.count ++ ' ' :: duration.unit.toList := by
  cases duration with
  | oneDay => decide
  | days count =>
    have hword : " days".toList = ' ' :: "days".toList := by decide
    rw [text, String.toList_append, hword]
    rfl
  | weeks count =>
    rw [text, String.toList_append, unit]
    split <;> rfl

theorem unit_mem (duration : Duration) : duration.unit ∈ ["day", "days", "week", "weeks"] := by
  cases duration with
  | oneDay => decide
  | days count => exact List.mem_cons_of_mem _ List.mem_cons_self
  | weeks count =>
    rw [unit]
    split <;> decide

/-- No integer has a character that is neither a digit nor a sign. -/
theorem not_mem_int {c : Char} (hdigit : c.isDigit = false) (hsign : c ≠ '-') (n : Int) :
    c ∉ Json.Printer.int n := by
  intro hc
  rcases Json.Printer.isDigit_of_mem_int hc with h | h
  · exact absurd h (by simp [hdigit])
  · exact hsign h

theorem int_injective : Function.Injective Json.Printer.int := by
  intro m n h
  have hm := Json.Reader.number_int .unlimited (n := m) Json.Reader.ends_nil rfl
  have hn := Json.Reader.number_int .unlimited (n := n) Json.Reader.ends_nil rfl
  rw [h, hn] at hm
  cases hm
  rfl

/-- **Different durations have different texts.** -/
theorem text_injective : Function.Injective text := by
  intro a b h
  have htext := congrArg String.toList h
  rw [toList_text, toList_text] at htext
  obtain ⟨hcount, hunit⟩ :=
    eq_of_append_cons (not_mem_int rfl (by decide) _) (not_mem_int rfl (by decide) _) htext
  rw [← ofParts_parts a, ← ofParts_parts b, int_injective hcount, String.toList_inj.mp hunit]

theorem parenthesis_not_mem_text (duration : Duration) : '(' ∉ duration.text.toList := by
  have hunit : ∀ unit ∈ ["day", "days", "week", "weeks"], '(' ∉ unit.toList := by decide
  rw [toList_text, List.mem_append, List.mem_cons, not_or, not_or]
  exact ⟨not_mem_int rfl (by decide) _, by decide, hunit _ duration.unit_mem⟩

end Duration

/-- A text tells a duration after some hours. -/
def Tells (effort : String) (duration : Duration) : Prop := ∃ hours, effort = layout hours duration

/-- Read from its end, a text has a duration up to the first parenthesis. -/
theorem reverse_layout (hours : String) (duration : Duration) :
    (layout hours duration).toList.reverse =
      (duration.text.toList ++ [')']).reverse ++ '(' :: (hours.toList ++ " hours ".toList).reverse := by
  have hwords : " hours (".toList = " hours ".toList ++ ['('] := by decide
  simp only [layout, String.toList_append, hwords]
  simp

/-- **A text tells one duration.** -/
theorem tells_layout {hours : String} {duration told : Duration} :
    Tells (layout hours duration) told ↔ told = duration := by
  have htail (d : Duration) : '(' ∉ (d.text.toList ++ [')']).reverse := by
    simpa using d.parenthesis_not_mem_text
  constructor
  · rintro ⟨other, h⟩
    have hreversed := congrArg (·.toList.reverse) h
    simp only [reverse_layout] at hreversed
    have htext := (eq_of_append_cons (htail duration) (htail told) hreversed).1
    have hsame : duration.text.toList = told.text.toList := by simpa using htext
    exact (Duration.text_injective (String.toList_injective hsame)).symm
  · rintro rfl
    exact ⟨hours, rfl⟩

/-! ## Rounded quotients -/

section Quotient
variable {hours size : Nat}

open Binary64 (scale)

theorem ceiling_ofRatio (hpos : 0 < size) (hsize : size < 2 ^ 53) (hhours : hours < 2 ^ 53) :
    ceiling (Binary64.ofRatio false hours size) = .ok (covering size hours) := by
  obtain ⟨units, hratio, hunits⟩ := Binary64.exists_units hpos hsize hhours
  have hcount : covering scale units = covering size hours := by
    apply le_antisymm
    · rw [covering_le_iff Binary64.scale_pos, hunits, ← covering_le_iff hpos]
    · rw [covering_le_iff hpos, ← hunits, ← covering_le_iff Binary64.scale_pos]
  rw [hratio, ← hcount]
  rfl

/-- Whole hours that are exact in binary64 are shown as they are. -/
theorem toReal_whole (hhours : hours < 2 ^ 53) :
    Quantity.toReal (.whole hours) = .ok (Binary64.ofRatio false hours 1) := by
  obtain ⟨units, hratio, -⟩ := Binary64.exists_units Nat.one_pos (by decide) hhours
  have hsign : decide ((hours : Int) < 0) = false := decide_eq_false (by omega)
  have hfound : Binary64.ofInt? hours = some (.finite false units) :=
    Binary64.ofInt?_of_finite (by rw [hsign, Int.natAbs_natCast, hratio])
  rw [Quantity.toReal, Quantity.ofWhole, hfound, hratio]
  rfl

theorem divided_whole (hours size : Nat) :
    divided size (.whole hours) = Binary64.ofRatio false hours size := by
  have hsign : decide ((hours : Int) < 0) = false := decide_eq_false (by omega)
  rw [divided, hsign, Int.natAbs_natCast]

/-- **Rounded quotients make the same text** as exact ones. -/
theorem ofQuantity_whole (hhours : hours < 2 ^ 53) :
    ofQuantity (.whole hours) = .ok (ofHours hours) := by
  have hdays : ceiling (Binary64.ofRatio false hours 8) = .ok (covering 8 hours) :=
    ceiling_ofRatio (by decide) (by decide) hhours
  have hweeks : ceiling (Binary64.ofRatio false hours 40) = .ok (covering 40 hours) :=
    ceiling_ofRatio (by decide) (by decide) hhours
  rw [ofQuantity, toReal_whole hhours, divided_whole, divided_whole, hdays, hweeks, ofHours,
    durationOf]
  by_cases hday : hours ≤ 8
  · simp [atMost, hday]
  by_cases hdays : hours ≤ 40
  · simp [atMost, hday, hdays]
    rfl
  · simp [atMost, hday, hdays]
    rfl

end Quotient

end SpecDraft.Effort

namespace SpecDraft.Plan

open Effort

/-! ## The estimates of plans -/

/-- What the estimate of a plan is like. -/
structure Estimated (plan : Plan) (hours : Nat) (duration : Duration) : Prop where
  /-- The tasks take so many hours. -/
  total : plan.totalHours = .ok (.whole hours)
  /-- The estimate shows the hours and the duration. -/
  text : plan.effort = layout (shown (Binary64.ofRatio false hours 1)) duration
  /-- It tells that duration and no other one. -/
  tells : ∀ told, Tells plan.effort told ↔ told = duration
  /-- The duration covers the hours. -/
  covers : Covers hours duration
  /-- There is never a single week. -/
  weeks : ∀ count, duration = .weeks count → 2 ≤ count ∧ duration.text = toString count ++ " weeks"
  /-- Quotients that are rounded make the same estimate. -/
  rounded : hours < 2 ^ 53 → ofQuantity (.whole hours) = .ok plan.effort

theorem effort_ofFeature (feature : Feature) (debt : Option Document) :
    (ofFeature feature debt).effort = ofHours (6 + 4 * feature.stories.length) := by
  have hhours : hoursFor feature.stories.length = 6 + 4 * feature.stories.length := by
    rw [hoursFor]
    omega
  rw [← hhours]
  rfl

theorem estimated_ofFeature (feature : Feature) (debt : Option Document) :
    Estimated (ofFeature feature debt) (6 + 4 * feature.stories.length)
      (durationOf (6 + 4 * feature.stories.length)) := by
  have htext := effort_ofFeature feature debt
  have htotal := hours_tasksOf feature
  generalize hhours : 6 + 4 * feature.stories.length = hours at htext ⊢
  have hwhole : (6 + 4 * feature.stories.length : Int) = hours := by omega
  rw [hwhole] at htotal
  have hcovers := covers_durationOf hours
  exact {
    total := htotal
    text := htext
    tells := fun told => by rw [htext, ofHours, tells_layout]
    covers := hcovers
    weeks := fun count h => by
      rw [h] at hcovers ⊢
      have hcount := hcovers.two_le_weeks
      exact ⟨hcount, by rw [Duration.text, if_neg (by omega)]⟩
    rounded := fun hexact => by rw [htext, ofQuantity_whole hexact] }

/-- **Estimates cover the work.** The estimate of the plan for a feature tells a duration that
covers the hours of its tasks, and where a feature has more stories it is never shorter. -/
theorem effort_covers :
    (∀ (feature : Feature) (debt : Option Document), ∃ duration,
      Estimated (ofFeature feature debt) (6 + 4 * feature.stories.length) duration) ∧
    ∀ (fewer more : Feature) (debt other : Option Document) (shorter longer : Duration),
      fewer.stories.length ≤ more.stories.length →
      Tells (ofFeature fewer debt).effort shorter → Tells (ofFeature more other).effort longer →
      shorter.inDays ≤ longer.inDays := by
  refine ⟨fun feature debt => ⟨_, estimated_ofFeature feature debt⟩, ?_⟩
  intro fewer more debt other shorter longer hstories hshorter hlonger
  have hfewer := estimated_ofFeature fewer debt
  have hmore := estimated_ofFeature more other
  obtain rfl := (hfewer.tells shorter).mp hshorter
  obtain rfl := (hmore.tells longer).mp hlonger
  exact hfewer.covers.inDays_le hmore.covers (by omega)

/-- A feature with nine stories. -/
def largeFeature : Feature :=
  { exportFeature with stories := List.replicate 9 ⟨"writer", "to keep a copy", "", ""⟩ }

theorem effort_covers_sample :
    exportFeature.stories.length ≤ largeFeature.stories.length ∧
    Tells (ofFeature exportFeature none).effort (.days 2) ∧
    Tells (ofFeature largeFeature none).effort (.weeks 2) ∧
    (∃ duration, Estimated (ofFeature largeFeature none) 42 duration) ∧
    (Duration.days 2).inDays ≤ (Duration.weeks 2).inDays := by
  have hstories : exportFeature.stories.length ≤ largeFeature.stories.length := by decide
  have hshorter : Tells (ofFeature exportFeature none).effort (.days 2) := ⟨_, rfl⟩
  have hlonger : Tells (ofFeature largeFeature none).effort (.weeks 2) := ⟨_, rfl⟩
  exact ⟨hstories, hshorter, hlonger, effort_covers.1 largeFeature none,
    effort_covers.2 _ _ none none _ _ hstories hshorter hlonger⟩

end SpecDraft.Plan
