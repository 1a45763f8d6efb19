import WebClient.Proofs.Utf8

/-!
# One byte for every character

Text whose characters go up to U+00FF stands for just as many bytes. Reading bytes as
text and writing such text as bytes undo each other.
-/

set_option autoImplicit false

namespace WebClient.Text

def IsNarrow (text : Text) : Prop :=
  ∀ c ∈ text, c.toNat < 256

instance (text : Text) : Decidable text.IsNarrow :=
  List.decidableBAll (fun c : Char => c.toNat < 256) text

def octets (text : Text) : Bytes :=
  text.map fun c => UInt8.ofNat c.toNat

theorem octets_append (left right : Text) : octets (left ++ right) = octets left ++ octets right :=
  List.map_append

theorem latin1_octets {text : Text} (narrow : text.IsNarrow) : latin1 text.octets = text := by
  have same : ∀ c ∈ text, Char.ofNat (UInt8.ofNat c.toNat).toNat = id c := by
    intro c member
    simp [Nat.mod_eq_of_lt (narrow c member)]
  rw [latin1, octets, List.map_map]
  exact (List.map_congr_left same).trans (List.map_id text)

theorem toNat_ofNat_of_byte (byte : UInt8) : (Char.ofNat byte.toNat).toNat = byte.toNat := by
  have small : byte.toNat < 256 := byte.toNat_lt
  have valid : byte.toNat.isValidChar := .inl (by omega)
  rw [Char.ofNat, dif_pos valid]
  rfl

theorem octets_latin1 (bytes : Bytes) : octets (latin1 bytes) = bytes := by
  have same : ∀ byte ∈ bytes, UInt8.ofNat (Char.ofNat byte.toNat).toNat = id byte := by
    intro byte _
    simp [toNat_ofNat_of_byte]
  rw [octets, latin1, List.map_map]
  exact (List.map_congr_left same).trans (List.map_id bytes)

theorem latin1_injective {left right : Bytes} (same : latin1 left = latin1 right) :
    left = right := by
  rw [← octets_latin1 left, same, octets_latin1]

theorem not_mem_octets {text : Text} (narrow : text.IsNarrow) {mark : Char}
    (absent : mark ∉ text) (single : mark.toNat < 256) :
    UInt8.ofNat mark.toNat ∉ text.octets := by
  intro member
  obtain ⟨c, listed, same⟩ := List.mem_map.1 member
  have codes : c.toNat = mark.toNat := by
    have values := congrArg UInt8.toNat same
    simpa [Nat.mod_eq_of_lt (narrow c listed), Nat.mod_eq_of_lt single] using values
  exact absent (Char.toNat_inj.1 codes ▸ listed)

theorem ofNat_toNat_injective : Function.Injective fun byte : UInt8 => Char.ofNat byte.toNat := by
  intro left right same
  have codes := congrArg Char.toNat same
  simp only [toNat_ofNat_of_byte] at codes
  exact UInt8.toNat_inj.1 codes

/-! ## Bytes that have been text -/

private theorem length_utf8EncodeChar_of_byte (byte : UInt8) :
    (String.utf8EncodeChar (Char.ofNat byte.toNat)).length =
      if byte.toNat < 128 then 1 else 2 := by
  have code : (Char.ofNat byte.toNat).val.toNat = byte.toNat := toNat_ofNat_of_byte byte
  have small : byte.toNat < 256 := byte.toNat_lt
  rw [String.utf8EncodeChar]
  split
  · rw [if_pos (by omega)]
    rfl
  · rw [if_pos (by omega), if_neg (by omega)]
    rfl

/-- Bytes that are read as text and written again grow by one for each beyond ASCII. -/
theorem length_utf8_latin1 (bytes : Bytes) :
    (utf8 (latin1 bytes)).length =
      bytes.length + bytes.countP fun byte => decide (128 ≤ byte.toNat) := by
  induction bytes with
  | nil => rfl
  | cons byte rest ih =>
    have whole : utf8 (latin1 (byte :: rest)) =
        String.utf8EncodeChar (Char.ofNat byte.toNat) ++ utf8 (latin1 rest) := rfl
    rw [whole, List.length_append, ih, length_utf8EncodeChar_of_byte, List.countP_cons,
      List.length_cons]
    by_cases small : byte.toNat < 128
    · rw [if_pos small, if_neg (by simpa using small)]
      omega
    · rw [if_neg small, if_pos (by simpa using small)]
      omega

theorem utf8_latin1_eq_self_iff {bytes : Bytes} :
    utf8 (latin1 bytes) = bytes ↔ ∀ byte ∈ bytes, byte.toNat < 128 := by
  constructor
  · intro same byte member
    have total := length_utf8_latin1 bytes
    rw [same] at total
    have none : bytes.countP (fun byte => decide (128 ≤ byte.toNat)) = 0 := by omega
    simpa using List.countP_eq_zero.1 none byte member
  · intro ascii
    induction bytes with
    | nil => rfl
    | cons byte rest ih =>
      obtain ⟨small, others⟩ := List.forall_mem_cons.1 ascii
      have code := toNat_ofNat_of_byte byte
      have single : String.utf8EncodeChar (Char.ofNat byte.toNat) = [byte] := by
        rw [utf8EncodeChar_of_ascii (by rwa [code]), code, UInt8.ofNat_toNat]
      calc
        utf8 (latin1 (byte :: rest)) =
            String.utf8EncodeChar (Char.ofNat byte.toNat) ++ utf8 (latin1 rest) := rfl
        _ = byte :: rest := by rw [single, ih others]; rfl

private theorem utf8_of_ascii {text : Text} (ascii : ∀ c ∈ text, c.toNat < 128) :
    utf8 text = octets text := by
  induction text with
  | nil => rfl
  | cons c rest ih =>
    obtain ⟨small, others⟩ := List.forall_mem_cons.1 ascii
    calc
      utf8 (c :: rest) = String.utf8EncodeChar c ++ utf8 rest := rfl
      _ = octets (c :: rest) := by rw [utf8EncodeChar_of_ascii small, ih others]; rfl

/-- Text that is written and read again byte by byte is the same if it is ASCII. -/
theorem latin1_utf8_eq_self_iff {text : Text} :
    latin1 (utf8 text) = text ↔ ∀ c ∈ text, c.toNat < 128 := by
  constructor
  · intro same c member
    have ascii := utf8_latin1_eq_self_iff.1 (congrArg utf8 same)
    rw [← same] at member
    obtain ⟨byte, listed, rfl⟩ := List.mem_map.1 member
    rw [toNat_ofNat_of_byte]
    exact ascii byte listed
  · intro ascii
    have narrow : text.IsNarrow := fun c member => Nat.lt_trans (ascii c member) (by decide)
    rw [utf8_of_ascii ascii, latin1_octets narrow]

end WebClient.Text
