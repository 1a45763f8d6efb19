import WebClient.CommandLine.Options
import WebClient.Proofs.FoldedSearch
import WebClient.Proofs.UrlParts

/-!
# The values of options

A value that is an argument of its own is read as it is given. One that is attached to its
option by an equals sign is read in small letters, as the name of the option is.
-/

set_option autoImplicit false

namespace WebClient

namespace Text

theorem lower_eq_self_iff {text : Text} :
    lower text = text ↔ ∀ c ∈ text, c.isUpper = false := by
  have kept (c : Char) : c.toLower = c ↔ c.isUpper = false := by
    rw [← Char.toNat_inj, toNat_toLower, ← Bool.not_eq_true, isUpper_iff]
    split <;> simp_all
  have pointwise : lower text = text ↔ ∀ c ∈ text, c.toLower = c := by
    have alike := List.map_inj_left (f := Char.toLower) (g := id) (l := text)
    rwa [List.map_id] at alike
  rw [pointwise]
  exact forall₂_congr fun c _ => kept c

private theorem isAlpha_of_isAlpha_toLower {c : Char} (letter : c.toLower.isAlpha = true) :
    c.isAlpha = true := by
  have ranges (c : Char) : c.isAlpha = (c.isUpper || c.isLower) := rfl
  rw [ranges, Bool.or_eq_true, isUpper_iff, isLower_iff] at letter ⊢
  rw [toNat_toLower] at letter
  split at letter <;> omega

end Text

namespace CommandLine

/-! ## Arguments -/

structure Attached where
  isSingle : Bool
  name : Text
  value : Text
  lettered : ∀ c ∈ name, c.isAlpha = true
  isLong : 2 ≤ name.length

namespace Attached

def given (attached : Attached) : Text :=
  (if attached.isSingle then ['-'] else ['-', '-']) ++ attached.name ++ '=' :: attached.value

/-- The argument with two hyphens and its name in small letters, and nothing else changed. -/
def spelled (attached : Attached) : Text :=
  '-' :: '-' :: Text.lower attached.name ++ '=' :: attached.value

end Attached

/-- What becomes of an option, whatever else the argument is. -/
theorem normalise_single {letter next : Char} (opens : letter.isAlpha = true) (rest : Text) :
    normalise ('-' :: letter :: next :: rest) =
      '-' :: '-' :: Text.lower (letter :: next :: rest) := by
  have other : letter ≠ '-' := by
    rintro rfl
    exact absurd opens (by decide)
  rw [normalise, if_pos opens]
  · rfl
  · exact other

theorem Attached.normalise_given (attached : Attached) :
    normalise attached.given =
      '-' :: '-' :: Text.lower attached.name ++ '=' :: Text.lower attached.value := by
  obtain ⟨isSingle, name, value, lettered, isLong⟩ := attached
  match name, isLong with
  | letter :: next :: rest, _ =>
    cases isSingle with
    | false => simp [given, normalise, Text.lower]
    | true =>
      have opens := lettered letter List.mem_cons_self
      exact (normalise_single opens _).trans (by simp [Text.lower])

/-- A word is read as it is given. -/
theorem normalise_of_isWord {argument : Text} (word : isWord (normalise argument) = true) :
    normalise argument = argument := by
  unfold normalise at word ⊢
  split at word
  · cases word
  · split at word
    · cases word
    · rename_i symbol
      rw [if_neg symbol]
  · rfl

/-- An argument that is read with two hyphens has two, or a single one. -/
theorem exists_of_normalise {argument text : Text}
    (read : normalise argument = '-' :: '-' :: text) :
    ∃ rest, Text.lower rest = text ∧ (argument = '-' :: '-' :: rest ∨ argument = '-' :: rest) := by
  unfold normalise at read
  split at read
  · rename_i rest
    exact ⟨rest, (List.cons.inj (List.cons.inj read).2).2, .inl rfl⟩
  · rename_i letter next rest single
    split at read
    · exact ⟨letter :: next :: rest, (List.cons.inj (List.cons.inj read).2).2, .inr rfl⟩
    · obtain ⟨rfl, -⟩ := List.cons.inj (List.cons.inj read).2
      exact absurd rfl single
  · rename_i double single
    exact absurd read (double text)

/-! ## Names -/

private theorem lettered_names : ∀ entry ∈ names,
    entry.1.toList.all Char.isAlpha = true ∧ 2 ≤ entry.1.toList.length := by
  decide +kernel

private theorem lettered_of_name {text : Text} {name : Name} (named : Name.of? text = some name) :
    text.all Char.isAlpha = true ∧ 2 ≤ text.length := by
  obtain ⟨entry, found, -⟩ := Option.map_eq_some_iff.1 named
  have same : entry.1.toList = text := by simpa using List.find?_some found
  exact same ▸ lettered_names entry (List.mem_of_find?_eq_some found)

/-- An option that is read with a value is given with that value attached, but for the case of
letters. -/
theorem exists_attached {argument value : Text} {name : Name}
    (read : Argument.of (normalise argument) = .option name (some value)) :
    ∃ attached : Attached, attached.given = argument ∧
      Name.of? (Text.lower attached.name) = some name ∧ value = Text.lower attached.value := by
  unfold Argument.of at read
  split at read
  · cases read
  · cases read
  · cases read
  · rename_i double
    obtain ⟨rest, rfl, given⟩ := exists_of_normalise double
    have equals (c : Char) : c.toLower = '=' ↔ c = '=' :=
      Text.toLower_eq_iff (by decide) (by decide)
    rw [Text.cutFirst?_lower equals] at read
    cases cut : Text.cutFirst? '=' rest with
    | none =>
      rw [cut] at read
      dsimp only [Option.map_none] at read
      split at read <;> cases read
    | some parts =>
      obtain ⟨front, back⟩ := parts
      obtain ⟨rfl, -⟩ := Text.cutFirst?_eq_some cut
      rw [cut] at read
      dsimp only [Option.map_some] at read
      split at read
      · rename_i found named
        cases read
        obtain ⟨lettered, isLong⟩ := lettered_of_name named
        have letters : ∀ c ∈ front, c.isAlpha = true := fun c member =>
          Text.isAlpha_of_isAlpha_toLower
            (List.all_eq_true.1 lettered c.toLower (List.mem_map_of_mem member))
        rw [Text.length_lower] at isLong
        rcases given with rfl | rfl
        · exact ⟨⟨false, front, back, letters, isLong⟩, rfl, named, rfl⟩
        · exact ⟨⟨true, front, back, letters, isLong⟩, rfl, named, rfl⟩
      · cases read
  · split at read <;> cases read

/-! ## Reading -/

/-- The ways in which a setting is given a value: behind its option, or attached to it. -/
inductive Sets (arguments : List Text) (setting : Setting) : Text → Prop
  | apart {option value : Text}
      (named : Argument.of (normalise option) = .option (.setting setting) none)
      (follows : [option, value] <:+: arguments) : Sets arguments setting value
  | attached (attached : Attached)
      (named : Name.of? (Text.lower attached.name) = some (.setting setting))
      (given : attached.given ∈ arguments) :
      Sets arguments setting (Text.lower attached.value)

def Pairs (arguments : List Text) (pairing : Pairing) (first second : Text) : Prop :=
  ∃ option, Argument.of (normalise option) = .option (.pairing pairing) none ∧
    [option, first, second] <:+: arguments

/-- All values of the options are given among the arguments. -/
structure AreGiven (arguments : List Text) (options : Options) : Prop where
  settings : ∀ entry ∈ options.settings, Sets arguments entry.1 entry.2
  pairings : ∀ entry ∈ options.pairings, Pairs arguments entry.1 entry.2.1 entry.2.2

namespace AreGiven

variable {arguments : List Text} {options next : Options}

theorem set {setting : Setting} {value : Text} (given : AreGiven arguments options)
    (sets : Sets arguments setting value) (added : options.set? setting value = some next) :
    AreGiven arguments next := by
  unfold Options.set? at added
  split at added
  · cases added
  · cases added
    exact ⟨List.forall_mem_append.2 ⟨given.settings, List.forall_mem_singleton.2 sets⟩,
      given.pairings⟩

theorem pair {pairing : Pairing} {first second : Text} (given : AreGiven arguments options)
    (pairs : Pairs arguments pairing first second)
    (added : options.pair? pairing first second = some next) : AreGiven arguments next := by
  unfold Options.pair? at added
  split at added
  · cases added
  · cases added
    exact ⟨given.settings,
      List.forall_mem_append.2 ⟨given.pairings, List.forall_mem_singleton.2 pairs⟩⟩

theorem turn {switch : Switch} (given : AreGiven arguments options)
    (added : options.turn? switch = some next) : AreGiven arguments next := by
  unfold Options.turn? at added
  split at added
  · cases added
  · cases added
    exact ⟨given.settings, given.pairings⟩

theorem say {verb : Text} (given : AreGiven arguments options)
    (added : options.say? verb = some next) : AreGiven arguments next := by
  unfold Options.say? at added
  split at added
  · cases added
  · cases added
    exact ⟨given.settings, given.pairings⟩

theorem readWords {words : List Text} {final : Options} (given : AreGiven arguments options)
    (read : CommandLine.readWords options words = .options final) : AreGiven arguments final := by
  induction words generalizing options with
  | nil =>
    cases read
    exact given
  | cons word rest ih =>
    rw [CommandLine.readWords] at read
    split at read
    · rename_i next added
      exact ih (given.say added) read
    · cases read

/-- Whatever is read of the arguments that are left, the values are given among all of them. -/
theorem readFrom {rest : List Text} {final : Options} (within : rest <:+ arguments)
    (given : AreGiven arguments options)
    (read : CommandLine.readFrom options (rest.map normalise) = .options final) :
    AreGiven arguments final := by
  generalize normalised : rest.map normalise = list at read
  fun_induction CommandLine.readFrom options list generalizing rest with
  | case1 =>
    cases read
    exact given
  | case2 options argument more divides => exact given.readWords read
  | case4 options argument more word isWord next added ih =>
    obtain ⟨first, left, rfl, -, behind⟩ := List.map_eq_cons_iff.1 normalised
    exact ih ((List.suffix_cons first left).trans within) (given.say added) behind read
  | case8 options argument more switch named next added ih =>
    obtain ⟨first, left, rfl, -, behind⟩ := List.map_eq_cons_iff.1 normalised
    exact ih ((List.suffix_cons first left).trans within) (given.turn added) behind read
  | case10 options argument more setting value named next added ih =>
    obtain ⟨first, left, rfl, rfl, behind⟩ := List.map_eq_cons_iff.1 normalised
    obtain ⟨attached, rfl, stands, rfl⟩ := exists_attached named
    have member : attached.given ∈ arguments := within.subset List.mem_cons_self
    exact ih ((List.suffix_cons _ left).trans within)
      (given.set (.attached attached stands member) added) behind read
  | case12 options argument setting named value more word next added ih =>
    obtain ⟨first, _, rfl, rfl, others⟩ := List.map_eq_cons_iff.1 normalised
    obtain ⟨second, left, rfl, rfl, behind⟩ := List.map_eq_cons_iff.1 others
    have follows : [first, second] <:+: arguments :=
      (List.prefix_append [first, second] left).isInfix.trans within.isInfix
    rw [normalise_of_isWord word] at added
    have suffix : left <:+ first :: second :: left := ⟨[first, second], rfl⟩
    exact ih (suffix.trans within) (given.set (.apart named follows) added) behind read
  | case16 options argument pairing named one other more words next added ih =>
    obtain ⟨first, _, rfl, rfl, others⟩ := List.map_eq_cons_iff.1 normalised
    obtain ⟨second, _, rfl, rfl, last⟩ := List.map_eq_cons_iff.1 others
    obtain ⟨third, left, rfl, rfl, behind⟩ := List.map_eq_cons_iff.1 last
    have follows : [first, second, third] <:+: arguments :=
      (List.prefix_append [first, second, third] left).isInfix.trans within.isInfix
    obtain ⟨oneWord, otherWord⟩ := Bool.and_eq_true_iff.1 words
    rw [normalise_of_isWord oneWord, normalise_of_isWord otherWord] at added
    have suffix : left <:+ first :: second :: third :: left := ⟨[first, second, third], rfl⟩
    exact ih (suffix.trans within) (given.pair ⟨first, named, follows⟩ added) behind read
  | _ => cases read

end AreGiven

/-- An argument that is no option stays as it is. Of an option with a value attached to it the
name and the value are turned into small letters, so that the value stays as it is exactly if
it has no capitals. Every value that is read is given as an argument of its own, as it is, or
attached to its option, but for the case of letters. -/
theorem values_of_read (arguments : List Text) :
    (∀ argument ∈ arguments, argument.head? ≠ some '-' → normalise argument = argument) ∧
    (∀ attached : Attached, attached.given ∈ arguments →
      normalise attached.given =
          '-' :: '-' :: Text.lower attached.name ++ '=' :: Text.lower attached.value ∧
        (normalise attached.given = attached.spelled ↔
          ∀ c ∈ attached.value, c.isUpper = false)) ∧
    ∀ options, read arguments = .options options → AreGiven arguments options := by
  refine ⟨fun argument _ plain => ?_, fun attached _ => ⟨attached.normalise_given, ?_⟩, ?_⟩
  · unfold normalise
    split
    · exact absurd rfl plain
    · exact absurd rfl plain
    · rfl
  · rw [attached.normalise_given, Attached.spelled, ← Text.lower_eq_self_iff]
    simp
  · intro options given
    have nothing : AreGiven arguments .none :=
      ⟨List.forall_mem_nil _, List.forall_mem_nil _⟩
    exact nothing.readFrom (List.suffix_refl arguments) given

/-- One value is attached to its option, and the others are not. -/
theorem values_of_read_of_path :
    let arguments := ["get", "-URL=http://h.com/Path", "-parameters", "Name=Value",
      "-useAuthentication", "User", "Pass"].map String.toList
    let url : Attached := ⟨true, "URL".toList, "http://h.com/Path".toList,
      List.all_eq_true.1 (by decide), by decide⟩
    normalise "get".toList = "get".toList ∧
      normalise url.given = "--url=http://h.com/path".toList ∧
      ∃ options, read arguments = .options options ∧ AreGiven arguments options ∧
        options.setting? .url = some "http://h.com/path".toList ∧
        options.setting? .parameters = some "Name=Value".toList ∧
        options.pairing? .authentication = some ("User".toList, "Pass".toList) := by
  intro arguments url
  obtain ⟨words, attached, values⟩ := values_of_read arguments
  have given : read arguments = .options ⟨some "get".toList,
      [(.url, "http://h.com/path".toList), (.parameters, "Name=Value".toList)],
      [(.authentication, "User".toList, "Pass".toList)], []⟩ := by decide +kernel
  exact ⟨words "get".toList (by decide) (by decide), (attached url (by decide)).1.trans (by decide),
    _, given, values _ given, by decide, by decide, by decide⟩

/-- A path that is attached to its option is turned into small letters. -/
theorem not_spelled_of_path :
    ¬ ∀ attached : Attached, normalise attached.given = attached.spelled := by
  intro always
  have same := always ⟨true, "url".toList, "http://h.com/Path".toList,
    List.all_eq_true.1 (by decide), by decide⟩
  exact absurd same (by decide)

end CommandLine

end WebClient
