import SpecDraft.Json.Extent
import SpecDraft.Json.Printer
import SpecDraft.Proofs.Number.Shortest
import SpecDraft.Time

/-!
# Numerals read back

A number is written by its digits, and the reader takes all of them if what follows does not run
on (`Ends`). Integers read back while they have no more digits than the limit allows
(`number_int`), and binary64 numbers always (`number_real`): the point and the exponent stand
where the reader looks for them, whichever of the four layouts is taken.
-/
set_option autoImplicit false

namespace SpecDraft.Json.Reader

/-- A text with which no number before it runs on. -/
def Ends (rest : List Char) : Prop :=
  ∀ c ∈ rest.head?, c.isDigit = false ∧ c ≠ '.' ∧ c ≠ 'e' ∧ c ≠ 'E'

/-- A text that does not start with a digit. -/
def NoDigit (rest : List Char) : Prop := ∀ c ∈ rest.head?, c.isDigit = false

theorem Ends.noDigit {rest : List Char} (h : Ends rest) : NoDigit rest :=
  fun c hc => (h c hc).1

theorem ends_nil : Ends [] := by simp [Ends]

theorem ends_cons {c : Char} {rest : List Char}
    (h : c.isDigit = false ∧ c ≠ '.' ∧ c ≠ 'e' ∧ c ≠ 'E') : Ends (c :: rest) := by
  simpa [Ends] using h

theorem noDigit_cons {c : Char} {rest : List Char} (h : c.isDigit = false) :
    NoDigit (c :: rest) := by
  simpa [NoDigit] using h

/-! ## Digits -/

section Digits
variable {ds rest : List Char}

theorem digits_append (hds : ∀ c ∈ ds, c.isDigit) (hrest : NoDigit rest) :
    digits (ds ++ rest) = (ds, rest) := by
  have htake : rest.takeWhile Char.isDigit = [] := by
    cases rest with
    | nil => rfl
    | cons c rest => rw [List.takeWhile_cons_of_neg (by simp [hrest c (by simp)])]
  have hdrop : rest.dropWhile Char.isDigit = rest := by
    cases rest with
    | nil => rfl
    | cons c rest => rw [List.dropWhile_cons_of_neg (by simp [hrest c (by simp)])]
  rw [digits, List.span_eq_takeWhile_dropWhile, List.takeWhile_append_of_pos hds,
    List.dropWhile_append_of_pos hds, htake, hdrop, List.append_nil]

theorem digitsValue_eq (ds : List Char) : digitsValue ds = Nat.ofDigitChars 10 ds 0 := by
  rw [digitsValue, Nat.ofDigitChars_eq_foldl]
  simp only [Nat.mul_comm 10]
  rfl

theorem digitsValue_toDigits (n : Nat) : digitsValue (Nat.toDigits 10 n) = n := by
  rw [digitsValue_eq, Nat.ofDigitChars_ten_toDigits]

/-- Zeros in front do not count. -/
theorem digitsValue_zeros (n : Nat) (ds : List Char) :
    digitsValue (List.replicate n '0' ++ ds) = digitsValue ds := by
  rw [digitsValue_eq, digitsValue_eq, Nat.ofDigitChars_append, Nat.ofDigitChars_replicate_zero,
    Nat.mul_zero]

/-- Each zero at the end counts as a factor of ten. -/
theorem digitsValue_append_zeros (ds : List Char) (n : Nat) :
    digitsValue (ds ++ List.replicate n '0') = digitsValue ds * 10 ^ n := by
  rw [digitsValue_eq, digitsValue_eq, Nat.ofDigitChars_append, Nat.ofDigitChars_replicate_zero,
    Nat.mul_comm]

theorem isDigit_of_mem_toDigits {n : Nat} : ∀ c ∈ Nat.toDigits 10 n, c.isDigit :=
  fun _ hc => Nat.isDigit_of_mem_toDigits (by decide) le_rfl hc

theorem isDigit_of_mem_zeros {n : Nat} : ∀ c ∈ List.replicate n '0', c.isDigit := by
  intro c hc
  rw [List.eq_of_mem_replicate hc]
  rfl

theorem digitChar_ne_zero : ∀ n < 10, 0 < n → Nat.digitChar n ≠ '0' := by decide

/-- The first digit of a positive number is not zero. -/
theorem head_toDigits {n : Nat} (hn : 0 < n) : (Nat.toDigits 10 n).head? ≠ some '0' := by
  induction n using Nat.strongRecOn with
  | ind n ih =>
    rw [Nat.toDigits_eq_if (by decide)]
    split
    · simpa using digitChar_ne_zero n ‹_› hn
    · rw [List.head?_append_of_ne_nil _ Nat.toDigits_ne_nil]
      exact ih (n / 10) (by omega) (by omega)

/-! ## Integer parts -/

/-- The digits of an integer part: a lone zero, or digits of which the first is not zero. -/
structure Whole (ds : List Char) : Prop where
  digit : ∀ c ∈ ds, c.isDigit
  nonempty : ds ≠ []
  lone_zero : ds.head? = some '0' → ds = ['0']

theorem whole_toDigits (n : Nat) : Whole (Nat.toDigits 10 n) where
  digit := isDigit_of_mem_toDigits
  nonempty := Nat.toDigits_ne_nil
  lone_zero h := by
    rcases Nat.eq_zero_or_pos n with rfl | hn
    · rfl
    · exact absurd h (head_toDigits hn)

/-- Digits whose first is that of a positive number. -/
theorem whole_of_head {n : Nat} (hn : 0 < n) (hds : ∀ c ∈ ds, c.isDigit)
    (hhead : ds.head? = (Nat.toDigits 10 n).head?) : Whole ds where
  digit := hds
  nonempty h := by
    rw [h, eq_comm, List.head?_nil, List.head?_eq_none_iff] at hhead
    exact Nat.toDigits_ne_nil hhead
  lone_zero h := absurd (hhead ▸ h) (head_toDigits hn)

theorem whole_zero : Whole ['0'] := whole_toDigits 0

theorem wholePart_append (hds : Whole ds) (hrest : NoDigit rest) :
    wholePart (ds ++ rest) = (ds, rest) := by
  obtain ⟨hdigit, hne, hzero⟩ := hds
  unfold wholePart
  split
  · rename_i tail heq
    obtain ⟨c, cs, rfl⟩ := List.exists_cons_of_ne_nil hne
    injection heq with hc htail
    subst hc
    injection hzero rfl with _ hcs
    subst hcs
    rw [← htail]
    rfl
  · exact digits_append hdigit hrest

/-! ## Fractions and exponents -/

theorem fraction_append (hne : ds ≠ []) (hds : ∀ c ∈ ds, c.isDigit) (hrest : NoDigit rest) :
    fraction ('.' :: (ds ++ rest)) = (ds, rest) := by
  have hempty : ds.isEmpty = false := by simpa using hne
  simp only [fraction, digits_append hds hrest, hempty]
  rfl

theorem fraction_none {c : Char} (hc : c ≠ '.') : fraction (c :: rest) = ([], c :: rest) := by
  unfold fraction
  split
  · rename_i heq
    injection heq with heq
    exact absurd heq hc
  · rfl

theorem fraction_ends (hrest : Ends rest) : fraction rest = ([], rest) := by
  cases rest with
  | nil => rfl
  | cons c rest => exact fraction_none (hrest c (by simp)).2.1

theorem exponent_ends (hrest : Ends rest) : exponent rest = (none, rest) := by
  cases rest with
  | nil => rfl
  | cons c rest =>
    obtain ⟨-, -, he, hE⟩ := hrest c (by simp)
    simp only [exponent, he, hE, or_self, if_false]

theorem exponent_append (negative : Bool) (hne : ds ≠ []) (hds : ∀ c ∈ ds, c.isDigit)
    (hrest : NoDigit rest) :
    exponent ('e' :: (if negative then '-' else '+') :: (ds ++ rest)) =
      (some (if negative then -(digitsValue ds : Int) else digitsValue ds), rest) := by
  have hempty : ds.isEmpty = false := by simpa using hne
  cases negative <;> simp [exponent, digits_append hds hrest, hempty]

end Digits

/-! ## Numbers without a sign -/

section Unsigned
variable (limits : Limits) (negative : Bool) {whole places power rest : List Char}

theorem Whole.isEmpty (h : Whole whole) : whole.isEmpty = false := by simpa using h.nonempty

theorem unsigned_int (hwhole : Whole whole) (hrest : Ends rest)
    (hlimit : limits.exceededBy? whole.length = none) :
    unsigned limits negative (whole ++ rest) =
      .ok (.int (if negative then -(digitsValue whole : Int) else digitsValue whole), rest) := by
  unfold unsigned
  rw [wholePart_append hwhole hrest.noDigit]
  dsimp only
  rw [fraction_ends hrest, exponent_ends hrest]
  simp [hwhole.isEmpty, hlimit]

/-- A number with a fraction, and perhaps with an exponent. -/
theorem unsigned_point {after : List Char} {exp : Option Int} (hwhole : Whole whole)
    (hne : places ≠ []) (hplaces : ∀ c ∈ places, c.isDigit) (hafter : NoDigit after)
    (hexp : exponent after = (exp, rest)) :
    unsigned limits negative (whole ++ '.' :: (places ++ after)) =
      .ok (.real (Binary64.ofDecimal negative (digitsValue (whole ++ places))
        (exp.getD 0 - places.length)), rest) := by
  unfold unsigned
  rw [wholePart_append hwhole (noDigit_cons rfl)]
  dsimp only
  rw [fraction_append hne hplaces hafter, hexp]
  simp [hwhole.isEmpty, hne]

/-- A number with an exponent and no fraction. -/
theorem unsigned_exponent (sign : Bool) (hwhole : Whole whole) (hne : power ≠ [])
    (hpower : ∀ c ∈ power, c.isDigit) (hrest : NoDigit rest) :
    unsigned limits negative (whole ++ 'e' :: (if sign then '-' else '+') :: (power ++ rest)) =
      .ok (.real (Binary64.ofDecimal negative (digitsValue whole)
        (if sign then -(digitsValue power : Int) else digitsValue power)), rest) := by
  unfold unsigned
  rw [wholePart_append hwhole (noDigit_cons rfl)]
  dsimp only
  rw [fraction_none (by decide), exponent_append sign hne hpower hrest]
  simp [hwhole.isEmpty]

end Unsigned

/-! ## The four layouts -/

section Layout
variable {limits : Limits} {negative : Bool} {rest : List Char} {d : Decimal}

theorem length_digitText (n : Nat) : (Decimal.digitText n).length = (Nat.toDigits 10 n).length := by
  rw [Decimal.digitText, String.length_ofList]

theorem toList_digitText (n : Nat) : (Decimal.digitText n).toList = Nat.toDigits 10 n := by
  rw [Decimal.digitText, String.toList_ofList]

theorem toList_zeros (n : Nat) : (Decimal.zeros n).toList = List.replicate n '0' := by
  rw [Decimal.zeros, String.toList_ofList]

/-- The digits of an exponent: at least two. -/
def powerDigits (n : Nat) : List Char :=
  if (Nat.toDigits 10 n).length < 2 then '0' :: Nat.toDigits 10 n else Nat.toDigits 10 n

theorem isDigit_of_mem_powerDigits {n : Nat} : ∀ c ∈ powerDigits n, c.isDigit := by
  intro c hc
  unfold powerDigits at hc
  split at hc
  · rcases List.mem_cons.mp hc with rfl | hc
    · rfl
    · exact isDigit_of_mem_toDigits c hc
  · exact isDigit_of_mem_toDigits c hc

theorem powerDigits_ne_nil (n : Nat) : powerDigits n ≠ [] := by
  unfold powerDigits
  split
  · exact List.cons_ne_nil _ _
  · exact Nat.toDigits_ne_nil

theorem digitsValue_powerDigits (n : Nat) : digitsValue (powerDigits n) = n := by
  unfold powerDigits
  split
  · exact (digitsValue_zeros 1 _).trans (digitsValue_toDigits n)
  · exact digitsValue_toDigits n

theorem toList_withExponent (text : List Char) (exponent : Int) :
    (Decimal.withExponent text exponent .fractional).toList =
      text.take 1 ++ ((if text.drop 1 = [] then [] else '.' :: text.drop 1) ++
        'e' :: (if exponent < 0 then '-' else '+') :: powerDigits exponent.natAbs) := by
  unfold Decimal.withExponent powerDigits
  simp only [String.toList_append, String.toList_ofList, length_digitText, List.isEmpty_iff,
    Decimal.Ending.fractional]
  split <;> split <;> split <;>
    simp [toList_digitText, String.toList_append]

/-- The signed value of the digits of an exponent. -/
theorem powerDigits_signed (exponent : Int) :
    (if decide (exponent < 0) then -(digitsValue (powerDigits exponent.natAbs) : Int)
      else digitsValue (powerDigits exponent.natAbs)) = exponent := by
  rw [digitsValue_powerDigits]
  by_cases h : exponent < 0
  · rw [if_pos (by simpa using h)]
    omega
  · rw [if_neg (by simpa using h)]
    omega

theorem unsigned_scientific (hpos : 0 < d.digits) (hrest : Ends rest) :
    unsigned limits negative ((d.scientific .fractional).toList ++ rest) =
      .ok (.real (Binary64.ofDecimal negative d.digits d.exponent), rest) := by
  obtain ⟨c, cs, hcs⟩ := List.exists_cons_of_ne_nil (Nat.toDigits_ne_nil (b := 10) (n := d.digits))
  have hdigit : ∀ x ∈ c :: cs, x.isDigit := hcs ▸ isDigit_of_mem_toDigits
  have hwhole : Whole [c] :=
    whole_of_head hpos (fun x hx => hdigit x (List.mem_cons.mpr (.inl (by simpa using hx))))
      (by rw [hcs]; rfl)
  obtain ⟨exp, hexp⟩ : ∃ exp : Int, exp = (c :: cs).length + d.exponent - 1 := ⟨_, rfl⟩
  have hvalue : digitsValue (c :: cs) = d.digits := hcs ▸ digitsValue_toDigits d.digits
  have hsign : (if exp < 0 then '-' else '+') = if decide (exp < 0) then '-' else '+' := by simp
  rw [Decimal.scientific, toList_digitText, hcs, ← hexp, toList_withExponent, hsign]
  cases cs with
  | nil =>
    have hread := unsigned_exponent limits negative (decide (exp < 0)) hwhole
      (powerDigits_ne_nil exp.natAbs) isDigit_of_mem_powerDigits hrest.noDigit
    rw [powerDigits_signed, hvalue, show exp = d.exponent by simp [hexp]] at hread
    simpa [hexp] using hread
  | cons c' cs =>
    have hpower := exponent_append (decide (exp < 0)) (powerDigits_ne_nil exp.natAbs)
      isDigit_of_mem_powerDigits hrest.noDigit
    have hread := unsigned_point limits negative hwhole (List.cons_ne_nil c' cs)
      (fun x hx => hdigit x (List.mem_cons_of_mem _ hx)) (noDigit_cons rfl) hpower
    rw [powerDigits_signed, show [c] ++ c' :: cs = c :: c' :: cs from rfl, hvalue, Option.getD_some,
      show exp - (c' :: cs).length = d.exponent by
        simp only [hexp, List.length_cons]; push_cast; ring] at hread
    simpa using hread

theorem isDigit_of_mem_append {ds ds' : List Char} (h : ∀ c ∈ ds, c.isDigit)
    (h' : ∀ c ∈ ds', c.isDigit) : ∀ c ∈ ds ++ ds', c.isDigit := by
  intro c hc
  rcases List.mem_append.mp hc with hc | hc
  · exact h c hc
  · exact h' c hc

/-- The digits follow the point and some zeros. -/
theorem unsigned_below (zeros : Nat) (hrest : Ends rest)
    (hexponent : -(((Nat.toDigits 10 d.digits).length : Int) + d.exponent) = zeros) :
    unsigned limits negative
        (['0'] ++ '.' :: (List.replicate zeros '0' ++ Nat.toDigits 10 d.digits ++ rest)) =
      .ok (.real (Binary64.ofDecimal negative d.digits d.exponent), rest) := by
  have hread := unsigned_point limits negative whole_zero
    (show List.replicate zeros '0' ++ Nat.toDigits 10 d.digits ≠ [] by simp [Nat.toDigits_ne_nil])
    (isDigit_of_mem_append isDigit_of_mem_zeros isDigit_of_mem_toDigits) hrest.noDigit
    (exponent_ends hrest)
  rw [show ['0'] ++ (List.replicate zeros '0' ++ Nat.toDigits 10 d.digits) =
      List.replicate (zeros + 1) '0' ++ Nat.toDigits 10 d.digits by rw [List.replicate_succ]; rfl,
    digitsValue_zeros, digitsValue_toDigits, Option.getD_none, List.length_append,
    List.length_replicate,
    show (0 : Int) - (zeros + (Nat.toDigits 10 d.digits).length : ℕ) = d.exponent by
      push_cast
      omega] at hread
  exact hread

/-- Zeros follow the digits, and then a fraction of one zero. -/
theorem unsigned_above (zeros : Nat) (hpos : 0 < d.digits) (hrest : Ends rest)
    (hexponent : d.exponent = zeros) :
    unsigned limits negative
        (Nat.toDigits 10 d.digits ++ List.replicate zeros '0' ++ '.' :: (['0'] ++ rest)) =
      .ok (.real (Binary64.ofDecimal negative d.digits d.exponent), rest) := by
  have hwhole : Whole (Nat.toDigits 10 d.digits ++ List.replicate zeros '0') :=
    whole_of_head hpos (isDigit_of_mem_append isDigit_of_mem_toDigits isDigit_of_mem_zeros)
      (by rw [List.head?_append_of_ne_nil _ Nat.toDigits_ne_nil])
  have hread := unsigned_point limits negative hwhole (List.cons_ne_nil '0' [])
    (isDigit_of_mem_zeros (n := 1)) hrest.noDigit (exponent_ends hrest)
  have hzeroed : digitsValue (Nat.toDigits 10 d.digits ++ List.replicate zeros '0' ++ ['0']) =
      d.digits * 10 ^ (zeros + 1) := by
    rw [List.append_assoc, ← List.replicate_succ', digitsValue_append_zeros, digitsValue_toDigits]
  rw [hzeroed, Option.getD_none, Binary64.ofDecimal_mul_pow,
    show (0 : Int) - ['0'].length + (zeros + 1 : ℕ) = d.exponent by
      rw [hexponent]
      simp] at hread
  exact hread

/-- The point stands between the digits. -/
theorem unsigned_between (point : Nat) (hpos : 0 < d.digits) (hrest : Ends rest)
    (hlt : point < (Nat.toDigits 10 d.digits).length) (hpoint : 0 < point)
    (hexponent : ((Nat.toDigits 10 d.digits).length : Int) + d.exponent = point) :
    unsigned limits negative ((Nat.toDigits 10 d.digits).take point ++
        '.' :: ((Nat.toDigits 10 d.digits).drop point ++ rest)) =
      .ok (.real (Binary64.ofDecimal negative d.digits d.exponent), rest) := by
  have hwhole : Whole ((Nat.toDigits 10 d.digits).take point) :=
    whole_of_head hpos (fun c hc => isDigit_of_mem_toDigits c (List.mem_of_mem_take hc))
      (by rw [List.head?_take, if_neg (by omega)])
  have hread := unsigned_point limits negative hwhole
    (show (Nat.toDigits 10 d.digits).drop point ≠ [] by simpa using hlt)
    (fun c hc => isDigit_of_mem_toDigits c (List.mem_of_mem_drop hc)) hrest.noDigit
    (exponent_ends hrest)
  rw [List.take_append_drop, digitsValue_toDigits, Option.getD_none, List.length_drop,
    show (0 : Int) - ((Nat.toDigits 10 d.digits).length - point : ℕ) = d.exponent by omega]
    at hread
  exact hread

theorem unsigned_positional (hpos : 0 < d.digits) (hrest : Ends rest) :
    unsigned limits negative ((d.positional .fractional).toList ++ rest) =
      .ok (.real (Binary64.ofDecimal negative d.digits d.exponent), rest) := by
  unfold Decimal.positional
  dsimp only
  rw [length_digitText]
  split
  · rename_i hbelow
    obtain ⟨zeros, hzeros⟩ := Int.eq_ofNat_of_zero_le (Int.neg_nonneg_of_nonpos hbelow)
    rw [hzeros, Int.toNat_natCast]
    simpa [String.toList_append, toList_zeros, toList_digitText] using
      unsigned_below zeros hrest hzeros
  split
  · obtain ⟨zeros, hzeros⟩ := Int.eq_ofNat_of_zero_le ‹0 ≤ d.exponent›
    have hread : unsigned limits negative _ = _ := unsigned_above zeros hpos hrest hzeros
    rw [hzeros] at hread
    rw [hzeros, Int.toNat_natCast]
    simpa [String.toList_append, toList_zeros, toList_digitText, Decimal.Ending.fractional] using
      hread
  · obtain ⟨point, hpoint⟩ := Int.eq_ofNat_of_zero_le
      (show 0 ≤ ((Nat.toDigits 10 d.digits).length : Int) + d.exponent by omega)
    rw [hpoint, Int.toNat_natCast]
    simpa [String.toList_append, toList_digitText] using
      unsigned_between point hpos hrest (by omega) (by omega) hpoint

/-- Every layout of a decimal reads as that decimal. -/
theorem unsigned_layout (hpos : 0 < d.digits) (hrest : Ends rest) :
    unsigned limits negative ((d.layout 16 .fractional).toList ++ rest) =
      .ok (.real (Binary64.ofDecimal negative d.digits d.exponent), rest) := by
  unfold Decimal.layout
  dsimp only
  split
  · exact unsigned_scientific hpos hrest
  · exact unsigned_positional hpos hrest

end Layout

/-! ## Numbers -/

section Number
variable {limits : Limits} {rest : List Char}

/-- What reads as a number without a sign starts with a digit. -/
theorem exists_digit_of_unsigned {negative : Bool} {s : List Char} {r : Json × List Char}
    (h : unsigned limits negative s = .ok r) : ∃ c t, s = c :: t ∧ c.isDigit := by
  cases s with
  | nil => cases h
  | cons c t =>
    refine ⟨c, t, rfl, ?_⟩
    by_contra hc
    have hspan : digits (c :: t) = ([], c :: t) :=
      digits_append (List.forall_mem_nil _) (noDigit_cons (by simpa using hc))
    have hwhole : wholePart (c :: t) = ([], c :: t) := by
      unfold wholePart
      split
      · rename_i heq
        injection heq with heq
        subst heq
        exact absurd rfl hc
      · exact hspan
    rw [unsigned, hwhole] at h
    cases h

theorem number_of_digit {c : Char} {t : List Char} (hc : c.isDigit) :
    number limits (c :: t) = unsigned limits false (c :: t) := by
  unfold number
  split
  all_goals first | rfl | (rename_i heq; injection heq with heq; subst heq; cases hc)

theorem number_neg_of_digit {c : Char} {t : List Char} (hc : c.isDigit) :
    number limits ('-' :: c :: t) = unsigned limits true (c :: t) := by
  unfold number
  split
  · rename_i heq
    injection heq with heq
    cases heq
  · rename_i heq
    injection heq with heq
    cases heq
  · rename_i heq
    injection heq with _ heq
    injection heq with heq
    subst heq
    cases hc
  · rename_i heq
    injection heq with _ heq
    rw [heq]
  · rename_i hne
    exact absurd rfl (hne (c :: t))

/-- A sign in front of a number without one. -/
theorem number_sign {negative : Bool} {s : List Char} {r : Json × List Char}
    (h : unsigned limits negative s = .ok r) :
    number limits ((if negative then ['-'] else []) ++ s) = .ok r := by
  obtain ⟨c, t, rfl, hc⟩ := exists_digit_of_unsigned h
  cases negative with
  | false => exact (number_of_digit hc).trans h
  | true => exact (number_neg_of_digit hc).trans h

variable (limits)

/-- An integer within the limit on digits reads back. -/
theorem number_int {n : Int} (hrest : Ends rest) (hlimit : limits.integerExcess? n = none) :
    number limits (Printer.int n ++ rest) = .ok (.int n, rest) := by
  rw [Limits.integerExcess?, Option.map_eq_none_iff] at hlimit
  have htext : Printer.int n =
      (if decide (n < 0) then ['-'] else []) ++ Nat.toDigits 10 n.natAbs := by
    rw [Printer.int]
    cases n with
    | ofNat n => simp [Int.toString_eq_repr, Int.repr]
    | negSucc n => simp [Int.toString_eq_repr, Int.repr, String.toList_append]
  have hread := unsigned_int limits (decide (n < 0)) (whole_toDigits n.natAbs) hrest hlimit
  rw [digitsValue_toDigits] at hread
  rw [htext, List.append_assoc, number_sign hread]
  congr 3
  by_cases h : n < 0
  · rw [if_pos (by simpa using h)]
    omega
  · rw [if_neg (by simpa using h)]
    omega

theorem toList_signText (negative : Bool) :
    (Binary64.signText negative).toList = if negative then ['-'] else [] := by
  cases negative <;> rfl

/-- **Binary64 numbers read back**, infinities and what is not a number included. -/
theorem number_real {x : Binary64} (hx : x.Representable) (hrest : Ends rest) :
    number limits (Printer.real x ++ rest) = .ok (.real x, rest) := by
  cases x with
  | nan => rfl
  | infinity negative => cases negative <;> rfl
  | finite negative units =>
    rw [Printer.real, Binary64.shortest, Binary64.textWith]
    · rw [String.toList_append, toList_signText, List.append_assoc]
      refine number_sign ?_
      rcases Nat.eq_zero_or_pos units with rfl | hpos
      · rw [if_pos rfl]
        have hread := unsigned_point limits negative whole_zero (List.cons_ne_nil '0' [])
          (isDigit_of_mem_zeros (n := 1)) hrest.noDigit
          (exponent_ends hrest)
        rwa [show digitsValue (['0'] ++ ['0']) = 0 from rfl, Binary64.ofDecimal_zero] at hread
      · rw [if_neg hpos.ne', unsigned_layout (Decimal.digits_ofRatio_pos hx hpos) hrest,
          Decimal.ofDecimal_shortest negative hx hpos]
    all_goals simp

end Number

end SpecDraft.Json.Reader

namespace SpecDraft.Moment

open Json.Reader

theorem toList_padded (width n : Nat) : ∃ zeros : Nat,
    (padded width n).toList = List.replicate zeros '0' ++ Nat.toDigits 10 n :=
  ⟨width - (Decimal.digitText n).length, by
    rw [padded, String.toList_append, toList_zeros, toList_digitText]⟩

/-- A number is read off its digits, however many zeros stand before them. -/
theorem padded_injective (width : Nat) : Function.Injective (padded width) := by
  intro m n h
  obtain ⟨k, hm⟩ := toList_padded width m
  obtain ⟨l, hn⟩ := toList_padded width n
  have hvalue := congrArg (fun text => digitsValue text.toList) h
  simpa only [hm, hn, digitsValue_zeros, digitsValue_toDigits] using hvalue

theorem isDigit_of_mem_padded {width n : Nat} : ∀ c ∈ (padded width n).toList, c.isDigit := by
  obtain ⟨zeros, heq⟩ := toList_padded width n
  rw [heq]
  exact isDigit_of_mem_append isDigit_of_mem_zeros isDigit_of_mem_toDigits

theorem padded_ne_nil (width n : Nat) : (padded width n).toList ≠ [] := by
  obtain ⟨zeros, heq⟩ := toList_padded width n
  rw [heq]
  exact List.append_ne_nil_of_right_ne_nil _ Nat.toDigits_ne_nil

end SpecDraft.Moment
