import Mathlib.Data.List.Induction

/-!
# Records with a length in their header

A stream of records in the framing of TLS: a header of five bytes, the last two of which
are the length of the payload, most significant byte first, and then the payload.

The framing is self-delimiting, and this file is the one place where that is used.  A byte
string that consists of whole records (`Whole`) can be cut off the front of an encoded
list in only one way: it is the encoding of its first records (`Whole.eq_encodeAll`).  So
a reader that only knows that it has consumed whole records knows *which* records it has
consumed.  `complete` goes the other way: the records of a list that are complete in a
given number of bytes of its encoding.

A `Record` carries a `content`, what its receiver makes of it; the framing does not look
at it.
-/

namespace Turbine

/-- A record, and what its receiver makes of it. -/
structure Record (μ : Type*) where
  typ : UInt8
  major : UInt8
  minor : UInt8
  payload : List UInt8
  content : μ
  /-- The length fits its two bytes. -/
  length_lt : payload.length < 65536

namespace Records

/-- The length of the payload that a header announces. -/
def lengthOf : List UInt8 → ℕ
  | [_, _, _, hi, lo] => hi.toNat * 256 + lo.toNat
  | _ => 0

/-- The bytes are a sequence of whole records. -/
inductive Whole : List UInt8 → Prop
  | nil : Whole []
  | snoc {bs header payload : List UInt8} (hbs : Whole bs) (hheader : header.length = 5)
      (hpayload : payload.length = lengthOf header) : Whole (bs ++ header ++ payload)

variable {μ : Type*}

/-- The header of a record. -/
def header (r : Record μ) : List UInt8 :=
  [r.typ, r.major, r.minor, UInt8.ofNat (r.payload.length / 256),
    UInt8.ofNat (r.payload.length % 256)]

/-- A record on the wire. -/
def encode (r : Record μ) : List UInt8 := header r ++ r.payload

/-- A list of records on the wire. -/
def encodeAll (rs : List (Record μ)) : List UInt8 := rs.flatMap encode

@[simp] theorem length_header (r : Record μ) : (header r).length = 5 := rfl

@[simp] theorem encodeAll_nil : encodeAll ([] : List (Record μ)) = [] := rfl

@[simp] theorem encodeAll_cons (r : Record μ) (rs : List (Record μ)) :
    encodeAll (r :: rs) = header r ++ (r.payload ++ encodeAll rs) := by
  rw [encodeAll, List.flatMap_cons, encode, List.append_assoc]
  rfl

@[simp] theorem encodeAll_append (rs rs' : List (Record μ)) :
    encodeAll (rs ++ rs') = encodeAll rs ++ encodeAll rs' := List.flatMap_append

theorem length_encode (r : Record μ) : (encode r).length = 5 + r.payload.length := by
  rw [encode, List.length_append, length_header]

/-- A header announces the length of its payload. -/
theorem lengthOf_header (r : Record μ) : lengthOf (header r) = r.payload.length := by
  have hlt := r.length_lt
  have hhi : (UInt8.ofNat (r.payload.length / 256)).toNat = r.payload.length / 256 := by
    rw [UInt8.toNat_ofNat']
    omega
  have hlo : (UInt8.ofNat (r.payload.length % 256)).toNat = r.payload.length % 256 := by
    rw [UInt8.toNat_ofNat']
    omega
  rw [header, lengthOf, hhi, hlo]
  omega

/-! ## Cutting an encoded list -/

/-- Less than a header is nothing. -/
theorem eq_nil_of_length_lt {h : List UInt8} {rs : List (Record μ)} (heq : h = encodeAll rs)
    (hlt : h.length < 5) : rs = [] ∧ h = [] := by
  cases rs with
  | nil => exact ⟨rfl, heq⟩
  | cons r rs =>
    have hlen := congrArg List.length heq
    simp only [encodeAll_cons, List.length_append, length_header] at hlen
    omega

/-- Five bytes off the front are the header of the first record. -/
theorem eq_cons_of_header {h w : List UInt8} {rs : List (Record μ)} (hlen : h.length = 5)
    (heq : h ++ w = encodeAll rs) :
    ∃ r rest, rs = r :: rest ∧ h = header r ∧ w = r.payload ++ encodeAll rest := by
  cases rs with
  | nil =>
    have hnil : h = [] := (List.append_eq_nil_iff.mp heq).1
    rw [hnil] at hlen
    exact absurd hlen (by simp)
  | cons r rest =>
    rw [encodeAll_cons] at heq
    obtain ⟨hh, hw⟩ := List.append_inj heq (by rw [hlen, length_header])
    exact ⟨r, rest, rfl, hh, hw⟩

/-- A header and part of its payload, off the front: the record is the first one. -/
theorem eq_cons_of_payload {h p w : List UInt8} {rs : List (Record μ)} (hlen : h.length = 5)
    (heq : h ++ (p ++ w) = encodeAll rs) (hp : p.length ≤ lengthOf h) :
    ∃ r rest, rs = r :: rest ∧ h = header r ∧ lengthOf h = r.payload.length ∧
      p = r.payload.take p.length ∧ w = r.payload.drop p.length ++ encodeAll rest := by
  obtain ⟨r, rest, hrs, hh, hw⟩ := eq_cons_of_header hlen heq
  have hsize : lengthOf h = r.payload.length := by rw [hh, lengthOf_header]
  rw [hsize] at hp
  refine ⟨r, rest, hrs, hh, hsize, ?_, ?_⟩
  · have htake := congrArg (List.take p.length) hw
    rwa [List.take_left, List.take_append_of_le_length hp] at htake
  · have hdrop := congrArg (List.drop p.length) hw
    rwa [List.drop_left, List.drop_append_of_le_length hp] at hdrop

/-- **Whole records off the front of an encoded list are its first records.** -/
theorem Whole.eq_encodeAll {bs w : List UInt8} (hbs : Whole bs) {rs : List (Record μ)}
    (heq : bs ++ w = encodeAll rs) :
    ∃ pre post, rs = pre ++ post ∧ bs = encodeAll pre ∧ w = encodeAll post := by
  induction hbs generalizing w with
  | nil => exact ⟨[], rs, rfl, rfl, heq⟩
  | @snoc bs h p hbs hlen hp ih =>
    rw [List.append_assoc, List.append_assoc] at heq
    obtain ⟨pre, post, hrs, hpre, hpost⟩ := ih heq
    obtain ⟨r, rest, hcons, hh, hsize, hpay, hw⟩ :=
      eq_cons_of_payload hlen hpost (Nat.le_of_eq hp)
    rw [hp, hsize, List.take_length] at hpay
    rw [hp, hsize, List.drop_length, List.nil_append] at hw
    refine ⟨pre ++ [r], rest, ?_, ?_, hw⟩
    · rw [hrs, hcons, List.append_assoc]
      rfl
    · rw [encodeAll_append, encodeAll_cons, encodeAll_nil, List.append_nil, hpre, hh, hpay,
        List.append_assoc]

/-! ## Whole records and nothing else -/

/-- Five bytes and as many as they announce are a record. -/
theorem exists_encode {h p : List UInt8} (hlen : h.length = 5) (hp : p.length = lengthOf h) :
    ∃ r : Record Unit, h ++ p = encode r := by
  match h, hlen with
  | [typ, major, minor, hi, lo], _ =>
    have hhi := hi.toNat_lt
    have hlo := lo.toNat_lt
    rw [lengthOf] at hp
    have hdiv : p.length / 256 = hi.toNat := by omega
    have hmod : p.length % 256 = lo.toNat := by omega
    refine ⟨⟨typ, major, minor, p, (), by omega⟩, ?_⟩
    rw [encode, header, hdiv, hmod, UInt8.ofNat_toNat, UInt8.ofNat_toNat]

theorem Whole.exists_encodeAll {bs : List UInt8} (h : Whole bs) :
    ∃ rs : List (Record Unit), bs = encodeAll rs := by
  induction h with
  | nil => exact ⟨[], rfl⟩
  | @snoc bs h p _ hlen hp ih =>
    obtain ⟨rs, rfl⟩ := ih
    obtain ⟨r, hr⟩ := exists_encode hlen hp
    refine ⟨rs ++ [r], ?_⟩
    rw [List.append_assoc, hr, encodeAll, encodeAll, List.flatMap_append, List.flatMap_singleton]

/-- What follows whole records in whole records is whole records. -/
theorem Whole.encodeAll_of_append {bs w : List UInt8} (h : Whole (bs ++ w)) (hbs : Whole bs) :
    ∃ rs : List (Record Unit), w = encodeAll rs := by
  obtain ⟨rs, hrs⟩ := h.exists_encodeAll
  obtain ⟨-, post, -, -, hpost⟩ := hbs.eq_encodeAll hrs
  exact ⟨post, hpost⟩

/-- **Part of a header does not follow whole records in whole records.** -/
theorem Whole.five_le_length {bs w : List UInt8} (h : Whole (bs ++ w)) (hbs : Whole bs)
    (hw : w ≠ []) : 5 ≤ w.length := by
  obtain ⟨rs, hrs⟩ := h.encodeAll_of_append hbs
  by_contra hlt
  exact hw (eq_nil_of_length_lt hrs (by omega)).2

/-- **Nor does part of a record.** -/
theorem Whole.lengthOf_le {bs hd w : List UInt8} (h : Whole (bs ++ (hd ++ w))) (hbs : Whole bs)
    (hlen : hd.length = 5) : lengthOf hd ≤ w.length := by
  obtain ⟨rs, hrs⟩ := h.encodeAll_of_append hbs
  obtain ⟨r, rest, -, rfl, rfl⟩ := eq_cons_of_header hlen hrs
  rw [lengthOf_header, List.length_append]
  exact Nat.le_add_right _ _

/-! ## Complete records -/

/-- The records of which all bytes are among the first `n` bytes of the encoding. -/
def complete : List (Record μ) → ℕ → List (Record μ)
  | [], _ => []
  | r :: rs, n =>
      if (encode r).length ≤ n then r :: complete rs (n - (encode r).length) else []

/-- Part of the first record is no record. -/
theorem complete_of_lt {r : Record μ} {rs : List (Record μ)} {n : ℕ}
    (hn : n < (encode r).length) : complete (r :: rs) n = [] := by
  rw [complete, if_neg (by omega)]

theorem complete_encodeAll_add (pre post : List (Record μ)) (n : ℕ) :
    complete (pre ++ post) ((encodeAll pre).length + n) = pre ++ complete post n := by
  induction pre with
  | nil => rw [encodeAll_nil, List.length_nil, Nat.zero_add, List.nil_append, List.nil_append]
  | cons r pre ih =>
    have hlen : (encodeAll (r :: pre)).length + n =
        (encode r).length + ((encodeAll pre).length + n) := by
      rw [encodeAll_cons, List.length_append, List.length_append, length_encode, length_header]
      omega
    rw [List.cons_append, complete, if_pos (by omega), hlen, Nat.add_sub_cancel_left, ih,
      List.cons_append]

/-- Whole records are complete. -/
theorem complete_encodeAll (pre post : List (Record μ)) :
    complete (pre ++ post) (encodeAll pre).length = pre := by
  have h := complete_encodeAll_add pre post 0
  have hzero : complete post 0 = [] := by
    cases post with
    | nil => rfl
    | cons r rs => exact complete_of_lt (by rw [length_encode]; omega)
  rwa [Nat.add_zero, hzero, List.append_nil] at h

/-- Counting on from the end of `pre`: the next record is complete or it is not. -/
theorem complete_next (pre : List (Record μ)) (r : Record μ) (post : List (Record μ))
    {n : ℕ} (hn : n ≤ (encode r).length) :
    complete (pre ++ r :: post) ((encodeAll pre).length + n) =
      if n = (encode r).length then pre ++ [r] else pre := by
  split
  · rename_i heq
    have hlen : (encodeAll pre).length + n = (encodeAll (pre ++ [r])).length := by
      simp only [heq, length_encode, encodeAll_append, encodeAll_cons, encodeAll_nil,
        List.length_append, length_header, List.length_nil]
      omega
    have hsplit : pre ++ r :: post = (pre ++ [r]) ++ post := by simp
    rw [hlen, hsplit, complete_encodeAll]
  · rw [complete_encodeAll_add, complete_of_lt (by omega), List.append_nil]

end Records
end Turbine
