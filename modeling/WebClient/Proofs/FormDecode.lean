import WebClient.Form
import WebClient.Proofs.Latin1
import WebClient.Proofs.UrlParts

/-!
# Form parameters read back

Parameters that were written are found again by splitting at the marks between them and
decoding what is between. The decoder is that of any form: a plus sign is a space, an escape
is its byte, and the bytes are UTF-8.
-/

set_option autoImplicit false

namespace WebClient

namespace Text

def ofUtf8? (bytes : Bytes) : Option Text :=
  bytes.toByteArray.utf8Decode?.map Array.toList

private theorem ofUtf8?_utf8 (text : Text) : ofUtf8? (utf8 text) = some text := by
  have read : (utf8 text).toByteArray.utf8Decode? = some text.toArray := List.utf8Decode?_utf8Encode
  rw [ofUtf8?, read, Option.map_some]

end Text

namespace Form

/-! ## Decoding -/

def hexValue? (digit : Char) : Option Nat :=
  let code := digit.toNat
  if 48 ≤ code ∧ code ≤ 57 then some (code - 48)
  else if 65 ≤ code ∧ code ≤ 70 then some (code - 55)
  else if 97 ≤ code ∧ code ≤ 102 then some (code - 87)
  else none

/-- The bytes that a written text stands for. A percent sign that no two digits follow stands
for itself. -/
def decodeBytes : Text → Bytes
  | '+' :: rest => 0x20 :: decodeBytes rest
  | '%' :: high :: low :: rest =>
    match hexValue? high, hexValue? low with
    | some sixteens, some units => UInt8.ofNat (16 * sixteens + units) :: decodeBytes rest
    | _, _ => 0x25 :: decodeBytes (high :: low :: rest)
  | c :: rest => String.utf8EncodeChar c ++ decodeBytes rest
  | [] => []

def decodeComponent? (written : Text) : Option Text :=
  Text.ofUtf8? (decodeBytes written)

def decodePair? (written : Text × Text) : Option (Text × Text) := do
  return (← decodeComponent? written.1, ← decodeComponent? written.2)

theorem hexValue?_hexDigit {value : Nat} (small : value < 16) :
    hexValue? (hexDigit value) = some value := by
  revert value
  decide

theorem hexDigit_ne {mark : Char} (foreign : hexValue? mark = none) {value : Nat}
    (small : value < 16) : hexDigit value ≠ mark := by
  rintro rfl
  rw [hexValue?_hexDigit small] at foreign
  cases foreign

private theorem decodeBytes_cons {c : Char} (solid : c ≠ '+') (plain : c ≠ '%') (rest : Text) :
    decodeBytes (c :: rest) = String.utf8EncodeChar c ++ decodeBytes rest := by
  rw [decodeBytes]
  · exact solid
  · intro high low more escape
    exact absurd escape plain

private theorem decodeBytes_escape {high low : Nat} (small : high < 16) (alsoSmall : low < 16)
    (rest : Text) :
    decodeBytes ('%' :: hexDigit high :: hexDigit low :: rest) =
      UInt8.ofNat (16 * high + low) :: decodeBytes rest := by
  rw [decodeBytes, hexValue?_hexDigit small, hexValue?_hexDigit alsoSmall]

/-! ## One byte -/

def StandsForItself (c : Char) : Prop :=
  c.isAlphanum = true ∨ c ∈ "-_.*".toList

inductive Writes : UInt8 → Text → Prop
  | plain {c : Char} (own : StandsForItself c) : Writes (UInt8.ofNat c.toNat) [c]
  | space : Writes 0x20 ['+']
  | escape {high low : Nat} (small : high < 16) (alsoSmall : low < 16) :
    Writes (UInt8.ofNat (16 * high + low)) ['%', hexDigit high, hexDigit low]

theorem standsForItself_of_isPlain {byte : UInt8} (plain : isPlain byte = true) :
    StandsForItself (Char.ofNat byte.toNat) := by
  simpa [isPlain, StandsForItself, or_assoc] using plain

theorem StandsForItself.ascii {c : Char} (own : StandsForItself c) : c.toNat < 128 := by
  rcases own with letter | mark
  · rw [Text.isAlphanum_iff] at letter
    omega
  · have marks : "-_.*".toList.all fun c => c.toNat < 128 := by decide
    simpa using List.all_eq_true.1 marks c mark

theorem StandsForItself.solid {c : Char} (own : StandsForItself c) : c ∉ "+%&=".toList := by
  have marks : "+%&=".toList.all fun c => !c.isAlphanum && !"-_.*".toList.contains c := by decide
  intro member
  have other : c.isAlphanum = false ∧ c ∉ "-_.*".toList := by
    simpa using List.all_eq_true.1 marks c member
  rcases own with letter | mark
  · rw [letter] at other
    cases other.1
  · exact other.2 mark

theorem writes_encodeByte (byte : UInt8) : Writes byte (encodeByte byte) := by
  unfold encodeByte
  split
  · rename_i plain
    have writes := Writes.plain (standsForItself_of_isPlain plain)
    rwa [Text.toNat_ofNat_of_byte, UInt8.ofNat_toNat] at writes
  · split
    · rename_i blank
      rw [blank]
      exact .space
    · have bound : byte.toNat < 256 := byte.toNat_lt
      have high : byte.toNat / 16 < 16 := by omega
      have low : byte.toNat % 16 < 16 := by omega
      have writes := Writes.escape high low
      rwa [Nat.div_add_mod, UInt8.ofNat_toNat] at writes

variable {byte : UInt8} {written : Text}

theorem Writes.decodeBytes_append (writes : Writes byte written) (rest : Text) :
    decodeBytes (written ++ rest) = byte :: decodeBytes rest := by
  cases writes with
  | @plain c own =>
    have marks : c ≠ '+' ∧ c ≠ '%' ∧ c ≠ '&' ∧ c ≠ '=' := by simpa using own.solid
    rw [List.singleton_append, decodeBytes_cons marks.1 marks.2.1,
      Text.utf8EncodeChar_of_ascii own.ascii]
    rfl
  | space => rfl
  | escape small alsoSmall => exact decodeBytes_escape small alsoSmall rest

theorem Writes.not_mem (writes : Writes byte written) {mark : Char}
    (separates : mark ∈ "&=".toList) :
    mark ∉ written := by
  have listed : mark = '&' ∨ mark = '=' := by simpa using separates
  intro member
  cases writes with
  | plain own =>
    have solid := own.solid
    rw [← List.mem_singleton.1 member] at solid
    rcases listed with rfl | rfl <;> simp at solid
  | space => rcases listed with rfl | rfl <;> simp at member
  | @escape high low small alsoSmall =>
    have foreign : hexValue? mark = none ∧ mark ≠ '%' := by
      rcases listed with rfl | rfl <;> decide
    simp only [List.mem_cons, List.not_mem_nil, or_false] at member
    rcases member with sign | first | second
    · exact foreign.2 sign
    · exact hexDigit_ne foreign.1 small first.symm
    · exact hexDigit_ne foreign.1 alsoSmall second.symm

/-! ## Components -/

private theorem decodeBytes_flatMap (bytes : Bytes) :
    decodeBytes (bytes.flatMap encodeByte) = bytes := by
  induction bytes with
  | nil => rfl
  | cons byte rest ih => rw [List.flatMap_cons, (writes_encodeByte byte).decodeBytes_append, ih]

private theorem decodeComponent?_encodeComponent (text : Text) :
    decodeComponent? (encodeComponent text) = some text := by
  rw [decodeComponent?, encodeComponent, decodeBytes_flatMap, Text.ofUtf8?_utf8]

private theorem not_mem_encodeComponent {mark : Char} (separates : mark ∈ "&=".toList)
    (text : Text) : mark ∉ encodeComponent text := by
  intro member
  obtain ⟨byte, -, inside⟩ := List.mem_flatMap.1 member
  exact (writes_encodeByte byte).not_mem separates inside

/-! ## Two passes -/

def percentEncode (text : Text) : Text :=
  (Text.utf8 text).flatMap fun byte =>
    if isPlain byte then [Char.ofNat byte.toNat]
    else ['%', hexDigit (byte.toNat / 16), hexDigit (byte.toNat % 16)]

def plusForSpace : Text → Text
  | '%' :: '2' :: '0' :: rest => '+' :: plusForSpace rest
  | c :: rest => c :: plusForSpace rest
  | [] => []

theorem plusForSpace_cons {c : Char} (plain : c ≠ '%') (rest : Text) :
    plusForSpace (c :: rest) = c :: plusForSpace rest := by
  rw [plusForSpace]
  intro more escape
  exact absurd escape plain

private theorem plusForSpace_escape {high low : Nat} (small : high < 16) (alsoSmall : low < 16)
    (other : 16 * high + low ≠ 32) (rest : Text) :
    plusForSpace ('%' :: hexDigit high :: hexDigit low :: rest) =
      '%' :: hexDigit high :: hexDigit low :: plusForSpace rest := by
  have digits : hexDigit high = '2' → hexDigit low ≠ '0' := by
    intro first second
    have two : some high = some 2 := by rw [← hexValue?_hexDigit small, first]; rfl
    have zero : some low = some 0 := by rw [← hexValue?_hexDigit alsoSmall, second]; rfl
    cases two
    cases zero
    exact other rfl
  rw [plusForSpace]
  · rw [plusForSpace_cons (hexDigit_ne (by decide) small),
      plusForSpace_cons (hexDigit_ne (by decide) alsoSmall)]
  · intro more _ same
    obtain ⟨first, more⟩ := List.cons.inj same
    exact digits first (List.cons.inj more).1

/-- The replacement meets the escapes of spaces, and nothing else: no escape begins inside
another. -/
theorem plusForSpace_percentEncode (text : Text) :
    plusForSpace (percentEncode text) = encodeComponent text := by
  unfold percentEncode encodeComponent
  induction Text.utf8 text with
  | nil => rfl
  | cons byte rest ih =>
    rw [List.flatMap_cons, List.flatMap_cons, ← ih]
    unfold encodeByte
    split
    · rename_i plain
      have other : Char.ofNat byte.toNat ≠ '%' := by
        intro same
        have solid := (standsForItself_of_isPlain plain).solid
        rw [same] at solid
        exact solid (by decide)
      exact plusForSpace_cons other _
    · split
      · rename_i blank
        subst blank
        rfl
      · rename_i blank
        have bound : byte.toNat < 256 := byte.toNat_lt
        have other : 16 * (byte.toNat / 16) + byte.toNat % 16 ≠ 32 := by
          rw [Nat.div_add_mod]
          exact fun same => blank (UInt8.toNat_inj.1 same)
        exact plusForSpace_escape (by omega) (by omega) other _

/-! ## Lists of parameters -/

private theorem split_encode (params : Params) :
    split (encode params) =
      params.map fun (name, value) => (encodeComponent name, encodeComponent value) := by
  have apart (text : Text) : '&' ∉ encodeComponent text := not_mem_encodeComponent (by decide) text
  have single (text : Text) : '=' ∉ encodeComponent text := not_mem_encodeComponent (by decide) text
  by_cases empty : params = []
  · subst empty
    rfl
  · have free : ∀ piece ∈ params.map fun (name, value) =>
        encodeComponent name ++ '=' :: encodeComponent value, '&' ∉ piece := by
      rw [List.forall_mem_map]
      intro param _
      simp [apart param.1, apart param.2]
    have occupied : ∀ piece ∈ params.map fun (name, value) =>
        encodeComponent name ++ '=' :: encodeComponent value, (!piece.isEmpty) = true := by
      rw [List.forall_mem_map]
      intro param _
      simp
    rw [split, encode, List.splitOn_intercalate '&' free (by simpa using empty),
      List.filter_eq_self.2 occupied, List.map_map]
    refine List.map_congr_left fun param _ => ?_
    simp only [Function.comp_apply, Text.cutFirst?_append_cons (single param.1)]

/-- Parameters are found again from what is written for them: as many pairs, in their order,
each with its name and value, whatever characters are in them. So no two lists are written
alike. Spaces may be escaped like other bytes first and be replaced in the whole afterwards. -/
theorem decodePair?_split_encode :
    (∀ params : Params, (split (encode params)).map decodePair? = params.map some) ∧
      Function.Injective encode ∧
      ∀ text, plusForSpace (percentEncode text) = encodeComponent text := by
  have found : ∀ params : Params, (split (encode params)).map decodePair? = params.map some := by
    intro params
    rw [split_encode, List.map_map]
    refine List.map_congr_left fun param _ => ?_
    simp [decodePair?, decodeComponent?_encodeComponent]
  refine ⟨found, ?_, plusForSpace_percentEncode⟩
  intro left right same
  have images : left.map some = right.map some := by rw [← found left, same, found right]
  exact List.map_injective_iff.2 (fun _ _ => Option.some.inj) images

end Form

end WebClient
