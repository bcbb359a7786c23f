/-!
# Text as bytes

The size of a text in bytes, and decoding UTF-8 that may be damaged: every well-formed
sequence gives its character, and every longest run of bytes that could have begun one
gives a single replacement character U+FFFD.
-/

namespace Stencil.Text

/-- The number of bytes of a text. -/
def byteSize : List Char → Nat
  | [] => 0
  | c :: cs => c.utf8Size + byteSize cs

/-- What a lead byte announces: how many bytes follow, the bounds of the first of them,
and the bits that the lead byte itself gives. -/
structure LeadByte where
  following : Nat
  low : Nat
  high : Nat
  bits : Nat

/-- What the byte announces, if a sequence of several bytes can begin with it. -/
def leadByte? (b : Nat) : Option LeadByte :=
  if 0xc2 ≤ b && b ≤ 0xdf then some ⟨1, 0x80, 0xbf, b - 0xc0⟩
  else if b = 0xe0 then some ⟨2, 0xa0, 0xbf, 0⟩
  else if b = 0xed then some ⟨2, 0x80, 0x9f, 0xd⟩
  else if 0xe1 ≤ b && b ≤ 0xef then some ⟨2, 0x80, 0xbf, b - 0xe0⟩
  else if b = 0xf0 then some ⟨3, 0x90, 0xbf, 0⟩
  else if 0xf1 ≤ b && b ≤ 0xf3 then some ⟨3, 0x80, 0xbf, b - 0xf0⟩
  else if b = 0xf4 then some ⟨3, 0x80, 0x8f, 4⟩
  else none

/-- Reads the following bytes of a sequence whose value so far is `bits`. Gives the
character, or the replacement if a byte is missing, and what is left. -/
def readFollowing (low high : Nat) : (count : Nat) → (bits : Nat) → List UInt8 →
    Char × List UInt8
  | 0, bits, bs => (Char.ofNat bits, bs)
  | _ + 1, _, [] => ('\ufffd', [])
  | count + 1, bits, b :: bs =>
    if low ≤ b.toNat && b.toNat ≤ high then
      readFollowing 0x80 0xbf count (bits * 64 + b.toNat % 64) bs
    else ('\ufffd', b :: bs)

theorem readFollowing_length (low high count bits : Nat) (bs : List UInt8) :
    (readFollowing low high count bits bs).2.length ≤ bs.length := by
  fun_induction readFollowing low high count bits bs <;> grind

/-- Decodes bytes, with replacement characters for what is not well-formed. -/
def decodeLossy (bytes : List UInt8) : List Char :=
  match bytes with
  | [] => []
  | b :: bs =>
    if b.toNat < 0x80 then Char.ofNat b.toNat :: decodeLossy bs
    else match leadByte? b.toNat with
      | none => '\ufffd' :: decodeLossy bs
      | some lead =>
        let result := readFollowing lead.low lead.high lead.following lead.bits bs
        result.1 :: decodeLossy result.2
termination_by bytes.length
decreasing_by
  · simp
  · simp
  · have := readFollowing_length lead.low lead.high lead.following lead.bits bs
    simp only [List.length_cons]
    omega

end Stencil.Text
