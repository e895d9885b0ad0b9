import OpcodeLens.Proofs.Text.Position

/-!
# The bytes of a text

Offsets count the bytes of the UTF-8 form of a text.  A character of several bytes has no byte below
128 in it, so an ASCII byte is always a character of its own, and no search for ASCII bytes ends
inside a character.

* `Text.utf8` : the bytes; their number is `Text.byteLength` (`Text.length_utf8`).
* `Text.getElem?_utf8_eq_some_iff` : **an ASCII byte stands where its character stands.**
* `Text.append_inj_of_byteLength` : a text can be cut at an offset in one way only.
* `Text.IsSlice` : a stretch of a text between two boundaries.
-/

namespace OpcodeLens

namespace Text

variable {text : Text} {c : Char} {b : UInt8} {i : Nat}

/-- The bytes of the text in UTF-8. -/
def utf8 (text : Text) : List UInt8 := text.flatMap String.utf8EncodeChar

theorem utf8_cons (c : Char) (rest : Text) :
    utf8 (c :: rest) = String.utf8EncodeChar c ++ rest.utf8 :=
  List.flatMap_cons

theorem utf8_append (before after : Text) : utf8 (before ++ after) = before.utf8 ++ after.utf8 :=
  List.flatMap_append

theorem length_utf8 (text : Text) : text.utf8.length = text.byteLength := by
  induction text with
  | nil => rfl
  | cons c rest ih =>
    rw [utf8_cons, List.length_append, String.length_utf8EncodeChar, ih, byteLength]

/-- The bytes of a piece of a text stand where the piece stands. -/
theorem getElem?_utf8_append (before piece after : Text) (hi : i < piece.byteLength) :
    (before ++ piece ++ after).utf8[before.byteLength + i]? = piece.utf8[i]? := by
  rw [utf8_append, utf8_append, List.append_assoc, ← length_utf8,
    List.getElem?_append_right (Nat.le_add_right _ _), Nat.add_sub_cancel_left,
    List.getElem?_append_left (by rwa [length_utf8])]

/-! ### Characters of one byte and of several -/

theorem utf8Size_ofUInt8 : (Char.ofUInt8 b).utf8Size = 1 ↔ b < 0x80 := by
  rw [Char.utf8Size_eq_one_iff, UInt32.le_iff_toNat_le, UInt8.lt_iff_toNat_lt]
  exact Nat.lt_succ_iff.symm

theorem utf8EncodeChar_ofUInt8 (h : b < 0x80) : String.utf8EncodeChar (Char.ofUInt8 b) = [b] := by
  rw [String.utf8EncodeChar_eq_singleton (utf8Size_ofUInt8.2 h)]
  exact congrArg (fun d => [d]) (UInt8.toUInt8_toUInt32 b)

/-- A character with an ASCII byte in it has no other byte. -/
theorem eq_ofUInt8_of_mem_utf8EncodeChar (hmem : b ∈ String.utf8EncodeChar c) (h : b < 0x80) :
    c = Char.ofUInt8 b := by
  by_cases hc : c.utf8Size = 1
  · rw [String.utf8EncodeChar_eq_singleton hc, List.mem_singleton] at hmem
    have hval : c.val.toNat ≤ 127 := UInt32.le_iff_toNat_le.1 (Char.utf8Size_eq_one_iff.1 hc)
    refine Char.ext (UInt32.toNat_inj.1 ?_)
    unfold Char.ofUInt8
    rw [hmem, UInt8.toNat_toUInt32, UInt32.toNat_toUInt8]
    omega
  · -- all bytes of a longer form have their top bit set
    have hlong : ¬ c.val.toNat ≤ 127 := fun hle =>
      hc (Char.utf8Size_eq_one_iff.2 (UInt32.le_iff_toNat_le.2 hle))
    have hsmall : b.toNat < 128 := UInt8.lt_iff_toNat_lt.1 h
    unfold String.utf8EncodeChar at hmem
    dsimp only at hmem
    rw [if_neg hlong] at hmem
    exfalso
    split_ifs at hmem
    all_goals
      simp only [List.mem_cons, List.not_mem_nil, or_false, ← UInt8.toNat_inj,
        UInt8.toNat_ofNat'] at hmem
      omega

theorem exists_eq_ofUInt8 (h : c.utf8Size = 1) : ∃ b < 0x80, c = Char.ofUInt8 b := by
  have hval : c.val.toNat ≤ 127 := UInt32.le_iff_toNat_le.1 (Char.utf8Size_eq_one_iff.1 h)
  have hlt : c.val.toUInt8 < 0x80 := by
    rw [UInt8.lt_iff_toNat_lt, UInt32.toNat_toUInt8]
    exact Nat.lt_of_le_of_lt (Nat.mod_le _ _) (Nat.lt_succ_of_le hval)
  refine ⟨c.val.toUInt8, hlt, eq_ofUInt8_of_mem_utf8EncodeChar ?_ hlt⟩
  rw [String.utf8EncodeChar_eq_singleton h]
  exact List.mem_singleton_self _

/-- **An ASCII byte stands where its character stands.** -/
theorem getElem?_utf8_eq_some_iff (h : b < 0x80) : text.utf8[i]? = some b ↔
    ∃ before after, text = before ++ Char.ofUInt8 b :: after ∧ before.byteLength = i := by
  constructor
  · intro hbyte
    induction text generalizing i with
    | nil => cases hbyte
    | cons c rest ih =>
      rw [utf8_cons] at hbyte
      by_cases hi : i < c.utf8Size
      · -- the byte is one of the first character, which therefore is the byte
        rw [List.getElem?_append_left (by rwa [String.length_utf8EncodeChar])] at hbyte
        obtain rfl := eq_ofUInt8_of_mem_utf8EncodeChar (List.mem_of_getElem? hbyte) h
        rw [← String.length_utf8EncodeChar, utf8EncodeChar_ofUInt8 h, List.length_singleton,
          Nat.lt_one_iff] at hi
        exact ⟨[], rest, rfl, hi.symm⟩
      · rw [List.getElem?_append_right (by rw [String.length_utf8EncodeChar]; omega),
          String.length_utf8EncodeChar] at hbyte
        obtain ⟨before, after, rfl, hlength⟩ := ih hbyte
        refine ⟨c :: before, after, rfl, ?_⟩
        rw [byteLength, hlength]
        omega
  · rintro ⟨before, after, rfl, rfl⟩
    rw [utf8_append, utf8_cons, utf8EncodeChar_ofUInt8 h, ← length_utf8,
      List.getElem?_append_right (Nat.le_refl _), Nat.sub_self]
    rfl

/-! ### Cuts -/

/-- A text can be cut at an offset in one way only. -/
theorem append_inj_of_byteLength {before before' after after' : Text}
    (heq : before ++ after = before' ++ after') (h : before.byteLength = before'.byteLength) :
    before = before' ∧ after = after' := by
  have hcut := splitAtByte_append before after
  rw [heq, h, splitAtByte_append] at hcut
  cases hcut
  exact ⟨rfl, rfl⟩

/-- A stretch of the text can be sliced: it lies inside the text, both its ends are boundaries, and
`piece` is what stands there. -/
structure IsSlice (text : Text) (range : ByteRange) (piece : Text) : Prop where
  /-- Its ends are in order. -/
  start_le : range.start ≤ range.stop
  /-- It lies inside the text. -/
  stop_le : range.stop ≤ text.byteLength
  /-- It does not start inside a character. -/
  start : text.IsBoundary range.start
  /-- It does not end inside a character. -/
  stop : text.IsBoundary range.stop
  /-- What stands there. -/
  eq : text.slice? range = some piece

theorem isSlice_append (before piece after : Text) :
    IsSlice (before ++ piece ++ after)
      ⟨before.byteLength, before.byteLength + piece.byteLength⟩ piece where
  start_le := Nat.le_add_right _ _
  stop_le := by
    rw [byteLength_append, byteLength_append]
    exact Nat.le_add_right _ _
  start := ⟨before, piece ++ after, List.append_assoc .., rfl⟩
  stop := ⟨before ++ piece, after, rfl, byteLength_append ..⟩
  eq := slice?_append before piece after

end Text

end OpcodeLens
