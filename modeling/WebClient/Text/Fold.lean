import WebClient.Text

/-!
# ASCII case

Names are compared without regard to the case of the ASCII letters. Letters
outside ASCII keep their case and are never equal to one another's capitals.
-/

set_option autoImplicit false

namespace WebClient.Text

/-- ASCII capitals replaced by small letters. -/
def lower (text : Text) : Text :=
  text.map Char.toLower

/-- Equality without regard to ASCII case. -/
def sameFolded (left right : Text) : Bool :=
  lower left == lower right

/-- What follows a beginning that spells `name` in any ASCII case; `name` itself
is given in small letters. -/
def dropFolded? : Text → Text → Option Text
  | [], text => some text
  | expected :: name, c :: text =>
    if c.toLower = expected then dropFolded? name text else none
  | _ :: _, [] => none

/-- Cut at the first place that spells `name` in any ASCII case. -/
def cutFolded? (name : Text) : Text → Option (Text × Text)
  | [] => if name.isEmpty then some ([], []) else none
  | c :: rest =>
    match dropFolded? name (c :: rest) with
    | some after => some ([], after)
    | none => (cutFolded? name rest).map fun (before, after) => (c :: before, after)

theorem toNat_toLower (c : Char) :
    c.toLower.toNat = if 65 ≤ c.toNat ∧ c.toNat ≤ 90 then c.toNat + 32 else c.toNat := by
  have capital : (c.val ≥ 'A'.val ∧ c.val ≤ 'Z'.val) ↔ 65 ≤ c.toNat ∧ c.toNat ≤ 90 := by
    rw [ge_iff_le, UInt32.le_iff_toNat_le, UInt32.le_iff_toNat_le]
    rfl
  unfold Char.toLower
  by_cases upper : 65 ≤ c.toNat ∧ c.toNat ≤ 90
  · rw [if_pos upper, dif_pos (capital.2 upper)]
    have code : (c.val + ('a'.val - 'A'.val)).toNat = c.toNat + 32 := by
      rw [UInt32.toNat_add]
      exact Nat.mod_eq_of_lt (Nat.lt_of_le_of_lt (Nat.add_le_add_right upper.2 32) (by decide))
    exact code
  · rw [if_neg upper, dif_neg (fun above => upper (capital.1 above))]

theorem toLower_toLower (c : Char) : c.toLower.toLower = c.toLower := by
  rw [← Char.toNat_inj, toNat_toLower c.toLower, toNat_toLower c]
  by_cases upper : 65 ≤ c.toNat ∧ c.toNat ≤ 90
  · rw [if_pos upper, if_neg (by omega)]
  · rw [if_neg upper, if_neg upper]

theorem lower_lower (text : Text) : lower (lower text) = lower text := by
  rw [lower, lower, List.map_map]
  exact List.map_congr_left fun c _ => toLower_toLower c

theorem length_lower (text : Text) : (lower text).length = text.length := by
  simp [lower]

theorem sameFolded_comm (left right : Text) : sameFolded left right = sameFolded right left := by
  simp only [sameFolded]
  exact Bool.beq_comm

end WebClient.Text
