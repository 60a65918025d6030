import RowMapper.Proofs.ExactNumber
import RowMapper.Proofs.Outcome

/-!
# Exact conversions

A value that is read as a native type is read exactly or not at all. An integer is read at any
width that has room for it, and at none that has not, so that nothing it is passed through changes
it. A number in single precision is read in double precision as the same number. All other data are
read as their own type only, and NULL as nothing by an optional type only.
-/

namespace RowMapper

/-! ## Integers -/

/-- The integer that a datum holds. -/
def Datum.integer? : Datum → Option Int
  | .int16 n => some n.toInt
  | .int32 n => some n.toInt
  | .int64 n => some n.toInt
  | _ => none

/-- The integer that a value holds. -/
def Value.integer? : Value → Option Int
  | .null _ => none
  | .of datum => datum.integer?

/-- The number of bits of the integers of a kind. -/
def Kind.width? : Kind → Option Nat
  | .int16 => some 16
  | .int32 => some 32
  | .int64 => some 64
  | _ => none

/-- The integer has room in the bits, one of which is its sign. -/
def Fits (width : Nat) (n : Int) : Prop := -2 ^ (width - 1) ≤ n ∧ n < 2 ^ (width - 1)

instance (width : Nat) (n : Int) : Decidable (Fits width n) :=
  inferInstanceAs (Decidable (_ ∧ _))

/-- What fits fits in a wider type. -/
theorem Fits.mono {width wider : Nat} {n : Int} (h : Fits width n) (hle : width ≤ wider) :
    Fits wider n := by
  have hpow : (2 : Int) ^ (width - 1) ≤ 2 ^ (wider - 1) :=
    pow_le_pow_right₀ (by norm_num) (Nat.sub_le_sub_right hle 1)
  exact ⟨le_trans (neg_le_neg hpow) h.1, lt_of_lt_of_le h.2 hpow⟩

theorem fits_int16 (n : Int16) : Fits 16 n.toInt := ⟨n.le_toInt, n.toInt_lt⟩

theorem fits_int32 (n : Int32) : Fits 32 n.toInt := ⟨n.le_toInt, n.toInt_lt⟩

theorem fits_int64 (n : Int64) : Fits 64 n.toInt := ⟨n.le_toInt, n.toInt_lt⟩

namespace Kind

variable {target : Kind} {width : Nat} {d : Datum} {n : Int}

/-- What an integer kind makes of an integer: the same one if it has room for it, and else the
failure that names it. -/
def ReadsInteger (target : Kind) (width : Nat) (d : Datum) (n : Int) : Prop :=
  (Fits width n →
      ∃ a, target.ofValue (.of d) = .ok a ∧ (target.datum a).integer? = some n)
    ∧ (¬Fits width n → target.ofValue (.of d) = .error (.outOfRange n d.kind target))

/-- Where there is always room, the integer is taken as it is. -/
theorem readsInteger_of_fits {a : target.Carrier} (hfits : Fits width n)
    (hok : target.ofValue (.of d) = .ok a) (ha : (target.datum a).integer? = some n) :
    target.ReadsInteger width d n :=
  ⟨fun _ => ⟨a, hok, ha⟩, fun h => absurd hfits h⟩

/-- Where the bounds are checked, the integer is taken between them. -/
theorem readsInteger_of_checked {least most : Int} {a : target.Carrier}
    (hrange : (least ≤ n ∧ n ≤ most) ↔ Fits width n)
    (h : target.ofValue (.of d)
      = if least ≤ n ∧ n ≤ most then .ok a else .error (.outOfRange n d.kind target))
    (ha : Fits width n → (target.datum a).integer? = some n) : target.ReadsInteger width d n := by
  unfold ReadsInteger
  rw [h]
  constructor
  · intro hfits
    rw [if_pos (hrange.2 hfits)]
    exact ⟨a, rfl, ha hfits⟩
  · intro hfits
    rw [if_neg (mt hrange.1 hfits)]

/-- An integer of more bits is read if it fits in 16. -/
theorem readsInteger_narrow16 (h : Kind.int16.ofValue (.of d) = narrow16 n d.kind) :
    Kind.int16.ReadsInteger 16 d n := by
  refine readsInteger_of_checked ?_ h fun hfits =>
    congrArg some (Int16.toInt_ofInt_of_le hfits.1 hfits.2)
  show (-32768 ≤ n ∧ n ≤ 32767) ↔ -32768 ≤ n ∧ n < 32768
  omega

/-- An integer of more bits is read if it fits in 32. -/
theorem readsInteger_narrow32 (h : Kind.int32.ofValue (.of d) = narrow32 n d.kind) :
    Kind.int32.ReadsInteger 32 d n := by
  refine readsInteger_of_checked ?_ h fun hfits =>
    congrArg some (Int32.toInt_ofInt_of_le hfits.1 hfits.2)
  show (-2147483648 ≤ n ∧ n ≤ 2147483647) ↔ -2147483648 ≤ n ∧ n < 2147483648
  omega

/-- An integer of fewer bits is always read into 32. -/
theorem readsInteger_widen32 (hfits : Fits 32 n)
    (h : Kind.int32.ofValue (.of d) = .ok (Int32.ofInt n)) : Kind.int32.ReadsInteger 32 d n :=
  readsInteger_of_fits hfits h (congrArg some (Int32.toInt_ofInt_of_le hfits.1 hfits.2))

/-- An integer of fewer bits is always read into 64. -/
theorem readsInteger_widen64 (hfits : Fits 64 n)
    (h : Kind.int64.ofValue (.of d) = .ok (Int64.ofInt n)) : Kind.int64.ReadsInteger 64 d n :=
  readsInteger_of_fits hfits h (congrArg some (Int64.toInt_ofInt_of_le hfits.1 hfits.2))

/-- Integers of every width are read at every width. -/
theorem readsInteger (hwidth : target.width? = some width) (hn : d.integer? = some n) :
    target.ReadsInteger width d n := by
  -- from every width to every width: the same width, a wider one, or a narrower one that may not
  -- have room
  cases d with
  | int16 k =>
    cases hn
    cases target with
    | int16 =>
      cases hwidth
      exact readsInteger_of_fits (fits_int16 k) rfl rfl
    | int32 =>
      cases hwidth
      exact readsInteger_widen32 ((fits_int16 k).mono (by decide)) rfl
    | int64 =>
      cases hwidth
      exact readsInteger_widen64 ((fits_int16 k).mono (by decide)) rfl
    | _ => cases hwidth
  | int32 k =>
    cases hn
    cases target with
    | int16 =>
      cases hwidth
      exact readsInteger_narrow16 rfl
    | int32 =>
      cases hwidth
      exact readsInteger_of_fits (fits_int32 k) rfl rfl
    | int64 =>
      cases hwidth
      exact readsInteger_widen64 ((fits_int32 k).mono (by decide)) rfl
    | _ => cases hwidth
  | int64 k =>
    cases hn
    cases target with
    | int16 =>
      cases hwidth
      exact readsInteger_narrow16 rfl
    | int32 =>
      cases hwidth
      exact readsInteger_narrow32 rfl
    | int64 =>
      cases hwidth
      exact readsInteger_of_fits (fits_int64 k) rfl rfl
    | _ => cases hwidth
  | _ => cases hn

/-! ## Other data -/

/-- A value of a kind is one that its native type writes. -/
theorem exists_datum (h : d.kind = target) : ∃ a, target.datum a = d := by
  subst h
  cases d <;> exact ⟨_, rfl⟩

/-- Apart from integers, and from single precision that is widened, a kind reads its own data and
refuses all other values. -/
theorem ofValue_of_other {v : Value} (hinteger : target.width? ≠ none → v.integer? = none)
    (hwiden : target = .float64 → ∀ x, v ≠ .of (.float32 x)) :
    (∀ a, v = .of (target.datum a) → target.ofValue v = .ok a)
      ∧ ((∀ a, v ≠ .of (target.datum a)) → target.ofValue v = .error (.mismatch v target)) := by
  refine ⟨fun a ha => ha ▸ ofValue_datum target a, fun hother => ?_⟩
  cases v with
  | null type => cases target <;> rfl
  | of d =>
    have hkind : d.kind ≠ target := fun h => by
      obtain ⟨a, rfl⟩ := exists_datum h
      exact hother a rfl
    have hdatum : target.width? ≠ none → d.integer? = none := hinteger
    cases target <;> cases d <;>
      first
        | rfl
        | exact absurd rfl hkind
        | exact absurd (hdatum (by decide)) (Option.some_ne_none _)
        | exact absurd rfl (hwiden rfl _)

end Kind

/-! ## Native types -/

namespace NativeType

variable {type : NativeType} {width : Nat} {d : Datum} {n : Int}

/-- The value that a value becomes when it is read as the type and written again. -/
def converted (type : NativeType) (v : Value) : Except ConversionError Value :=
  (type.ofValue v).map type.toValue

/-- The value after conversions to several types, one after the other. -/
def convertedAlong : List NativeType → Value → Except ConversionError Value
  | [], v => .ok v
  | type :: rest, v => (type.converted v).bind (convertedAlong rest)

/-- Reading what was written gives it back. -/
theorem ofValue_toValue (type : NativeType) (a : type.Carrier) :
    type.ofValue (type.toValue a) = .ok a := by
  cases type with
  | required kind => exact kind.ofValue_datum a
  | optional kind =>
    cases a with
    | none => rfl
    | some a =>
      show (kind.ofValue (.of (kind.datum a))).map some = _
      rw [Kind.ofValue_datum]
      rfl

/-- A datum is converted as by its kind, whether or not the type is optional. -/
theorem ofValue_of (type : NativeType) (d : Datum) :
    (∀ a, type.kind.ofValue (.of d) = .ok a →
        type.converted (.of d) = .ok (.of (type.kind.datum a)))
      ∧ ∀ cause, type.kind.ofValue (.of d) = .error cause →
        type.ofValue (.of d) = .error cause := by
  cases type with
  | required kind =>
    refine ⟨fun a ha => ?_, fun cause h => h⟩
    show (kind.ofValue (.of d)).map _ = _
    change kind.ofValue (.of d) = _ at ha
    rw [ha]
    rfl
  | optional kind =>
    refine ⟨fun a ha => ?_, fun cause h => ?_⟩
    · show ((kind.ofValue (.of d)).map some).map _ = _
      change kind.ofValue (.of d) = _ at ha
      rw [ha]
      rfl
    · show (kind.ofValue (.of d)).map some = _
      change kind.ofValue (.of d) = _ at h
      rw [h]
      rfl

/-- An integer is converted without a change, or refused as out of range. -/
theorem converted_integer (hwidth : type.kind.width? = some width) (hn : d.integer? = some n) :
    (Fits width n → ∃ d', type.converted (.of d) = .ok (.of d') ∧ d'.kind = type.kind
        ∧ d'.integer? = some n)
      ∧ (¬Fits width n → type.ofValue (.of d) = .error (.outOfRange n d.kind type.kind)) := by
  obtain ⟨hfits, hfails⟩ := Kind.readsInteger hwidth hn
  obtain ⟨hok, herror⟩ := type.ofValue_of d
  refine ⟨fun h => ?_, fun h => herror _ (hfails h)⟩
  obtain ⟨a, ha, hinteger⟩ := hfits h
  exact ⟨type.kind.datum a, hok a ha, type.kind.kind_datum a, hinteger⟩

/-- An integer is passed through types of integers unchanged, if all of them have room for it. -/
theorem convertedAlong_integer {types : List NativeType}
    (htypes : ∀ type ∈ types, type.kind.width? ≠ none) (hn : d.integer? = some n) :
    ((∀ type ∈ types, ∀ width, type.kind.width? = some width → Fits width n) →
        ∃ d', convertedAlong types (.of d) = .ok (.of d') ∧ d'.integer? = some n)
      ∧ ((∃ type ∈ types, ∃ width, type.kind.width? = some width ∧ ¬Fits width n) →
        ∃ cause, convertedAlong types (.of d) = .error cause) := by
  -- along the chain: an integer that fits a width is handed on unchanged
  induction types generalizing d with
  | nil =>
    refine ⟨fun _ => ⟨d, rfl, hn⟩, ?_⟩
    rintro ⟨type, hmem, -⟩
    exact absurd hmem List.not_mem_nil
  | cons first rest ih =>
    obtain ⟨hfirst, hrest⟩ := List.forall_mem_cons.1 htypes
    obtain ⟨width, hwidth⟩ := Option.ne_none_iff_exists'.1 hfirst
    obtain ⟨hfits, hfails⟩ := converted_integer hwidth hn
    by_cases hroom : Fits width n
    · obtain ⟨d', hd', -, hn'⟩ := hfits hroom
      have hstep : convertedAlong (first :: rest) (.of d) = convertedAlong rest (.of d') := by
        rw [convertedAlong, hd']
        rfl
      obtain ⟨hall, hsome⟩ := ih hrest hn'
      rw [hstep]
      refine ⟨fun h => hall fun type hmem => h type (List.mem_cons_of_mem _ hmem), ?_⟩
      rintro ⟨type, hmem, width', hwidth', hnot⟩
      rcases List.mem_cons.1 hmem with rfl | hmem
      · rw [hwidth] at hwidth'
        cases hwidth'
        exact absurd hroom hnot
      · exact hsome ⟨type, hmem, width', hwidth', hnot⟩
    · -- the first width without room ends the chain
      refine ⟨fun h => absurd (h first List.mem_cons_self width hwidth) hroom, fun _ => ?_⟩
      refine ⟨.outOfRange n d.kind first.kind, ?_⟩
      rw [convertedAlong, converted, hfails hroom]
      rfl

/-- What is written is read back. An integer is read at a width exactly if it has room there, and
passed through widths exactly if it has room at each; it is refused otherwise and never changed. A
number in single precision is read in double precision as the same number. Apart from these, a kind
reads exactly the data of its own, and an optional type in addition every NULL, as nothing. -/
theorem conversions_exact :
    (∀ (type : NativeType) (a : type.Carrier), type.ofValue (type.toValue a) = .ok a)
    ∧ (∀ (type : NativeType) (width : Nat) (d : Datum) (n : Int),
        type.kind.width? = some width → d.integer? = some n →
        ((∃ d', type.converted (.of d) = .ok (.of d') ∧ d'.kind = type.kind
            ∧ d'.integer? = some n) ↔ Fits width n)
          ∧ (¬Fits width n → type.ofValue (.of d) = .error (.outOfRange n d.kind type.kind)))
    ∧ (∀ (types : List NativeType) (d : Datum) (n : Int),
        (∀ type ∈ types, type.kind.width? ≠ none) → d.integer? = some n →
        ((∃ v, convertedAlong types (.of d) = .ok v)
            ↔ ∀ type ∈ types, ∀ width, type.kind.width? = some width → Fits width n)
          ∧ ∀ v, convertedAlong types (.of d) = .ok v → v.integer? = some n)
    ∧ (∀ x : Binary32, Kind.float64.ofValue (.of (.float32 x)) = .ok x.widen
        ∧ x.widen.number? = x.number?)
    ∧ (∀ (kind : Kind) (v : Value), (kind.width? ≠ none → v.integer? = none) →
        (kind = .float64 → ∀ x, v ≠ .of (.float32 x)) →
        ((∃ a, kind.ofValue v = .ok a) ↔ v.type = .of kind ∧ v.isNull = false)
          ∧ (∀ a, kind.ofValue v = .ok a → v = .of (kind.datum a))
          ∧ ((∀ a, kind.ofValue v ≠ .ok a) → kind.ofValue v = .error (.mismatch v kind)))
    ∧ ∀ (kind : Kind) (v : Value),
        ((optional kind).ofValue v = .ok none ↔ v.isNull)
          ∧ (v.isNull = false → (optional kind).ofValue v = (kind.ofValue v).map some) := by
  refine ⟨ofValue_toValue, fun type width d n hwidth hn => ?_, fun types d n htypes hn => ?_,
    fun x => ⟨rfl, x.number?_widen⟩, fun kind v hinteger hwiden => ?_, fun kind v => ?_⟩
  · obtain ⟨hfits, hfails⟩ := converted_integer hwidth hn
    refine ⟨⟨?_, hfits⟩, hfails⟩
    rintro ⟨d', hd', -⟩
    by_contra hnot
    rw [converted, hfails hnot] at hd'
    cases hd'
  · obtain ⟨hall, hsome⟩ := convertedAlong_integer htypes hn
    by_cases hroom : ∀ type ∈ types, ∀ width, type.kind.width? = some width → Fits width n
    · obtain ⟨d', hd', hn'⟩ := hall hroom
      rw [hd']
      refine ⟨⟨fun _ => hroom, fun _ => ⟨_, rfl⟩⟩, fun v hv => ?_⟩
      cases hv
      exact hn'
    · obtain ⟨cause, hcause⟩ := hsome (by push Not at hroom; exact hroom)
      rw [hcause]
      exact ⟨⟨fun h => absurd h Except.not_exists_ok, fun h => absurd h hroom⟩,
        fun v hv => absurd ⟨v, hv⟩ Except.not_exists_ok⟩
  · -- a kind takes its own data only, and these are the values of its type
    obtain ⟨hown, hother⟩ := Kind.ofValue_of_other hinteger hwiden
    by_cases hdatum : ∃ a, v = .of (kind.datum a)
    · obtain ⟨a, rfl⟩ := hdatum
      have hok := hown a rfl
      rw [hok]
      refine ⟨⟨fun _ => ⟨congrArg ValueType.of (kind.kind_datum a), rfl⟩, fun _ => ⟨a, rfl⟩⟩,
        fun b hb => ?_, fun h => absurd rfl (h a)⟩
      cases hb
      rfl
    · have hfails := hother fun a ha => hdatum ⟨a, ha⟩
      rw [hfails]
      refine ⟨⟨fun h => absurd h Except.not_exists_ok, ?_⟩,
        fun a ha => absurd ⟨a, ha⟩ Except.not_exists_ok, fun _ => rfl⟩
      rintro ⟨htype, hnull⟩
      cases v with
      | null type => cases hnull
      | of d =>
        obtain ⟨a, rfl⟩ := Kind.exists_datum (ValueType.of.inj htype)
        exact absurd ⟨a, rfl⟩ hdatum
  · cases hnull : v.isNull with
    | true => simp [ofValue, hnull]
    | false =>
      simp only [ofValue, hnull, Bool.false_eq_true, ↓reduceIte, iff_false, forall_const,
        and_true]
      cases kind.ofValue v <;> simp [Except.map]

/-- The least integer of 16 bits goes through all widths, the one below it is refused at 16 bits,
and a text is read as no number. -/
theorem conversions_exact_least :
    let widths : List NativeType := [.required .int64, .optional .int16, .required .int32]
    (∃ v, convertedAlong widths (.of (.int32 (-32768))) = .ok v ∧ v.integer? = some (-32768))
      ∧ (NativeType.optional .int16).ofValue (.of (.int64 (-32769)))
        = .error (.outOfRange (-32769) .int64 .int16)
      ∧ Kind.float64.ofValue (.of (.varchar "1"))
        = .error (.mismatch (.of (.varchar "1")) .float64) := by
  intro widths
  obtain ⟨-, hwidth, halong, -, hother, -⟩ := conversions_exact
  obtain ⟨hthrough, hinteger⟩ := halong widths (.int32 (-32768)) (-32768) (by decide) rfl
  obtain ⟨v, hv⟩ := hthrough.2 (by decide)
  refine ⟨⟨v, hv, hinteger v hv⟩, ?_, ?_⟩
  · exact (hwidth (.optional .int16) 16 (.int64 (-32769)) (-32769) rfl rfl).2 (by decide)
  · obtain ⟨hreads, -, hrefuses⟩ := hother .float64 (.of (.varchar "1")) (by decide) (by simp)
    exact hrefuses fun a ha => absurd (hreads.1 ⟨a, ha⟩).1 (by decide)

end NativeType

end RowMapper
