import WebClient.Proofs.Cleaning
import WebClient.Proofs.RequestHead

/-!
# The parts of a URL

Scheme, authority and path of a URL that was cleaned, each with the texts that are read as
it. A part is found where it was put, whatever follows it.
-/

set_option autoImplicit false

namespace WebClient

namespace Text

theorem between_iff (low high : Char) {c : Char} :
    c.val ≥ low.val ∧ c.val ≤ high.val ↔ low.toNat ≤ c.toNat ∧ c.toNat ≤ high.toNat := by
  rw [ge_iff_le, UInt32.le_iff_toNat_le, UInt32.le_iff_toNat_le]
  rfl

theorem isUpper_iff {c : Char} : c.isUpper = true ↔ 65 ≤ c.toNat ∧ c.toNat ≤ 90 :=
  decide_eq_true_iff.trans (between_iff 'A' 'Z')

theorem isLower_iff {c : Char} : c.isLower = true ↔ 97 ≤ c.toNat ∧ c.toNat ≤ 122 :=
  (Bool.and_eq_true_iff.trans (and_congr decide_eq_true_iff decide_eq_true_iff)).trans
    (between_iff 'a' 'z')

theorem isDigit_iff {c : Char} : c.isDigit = true ↔ 48 ≤ c.toNat ∧ c.toNat ≤ 57 :=
  (Bool.and_eq_true_iff.trans (and_congr decide_eq_true_iff decide_eq_true_iff)).trans
    (between_iff '0' '9')

theorem isAlphanum_iff {c : Char} : c.isAlphanum = true ↔
    ((65 ≤ c.toNat ∧ c.toNat ≤ 90) ∨ (97 ≤ c.toNat ∧ c.toNat ≤ 122)) ∨
      (48 ≤ c.toNat ∧ c.toNat ≤ 57) := by
  have ranges : c.isAlphanum = ((c.isUpper || c.isLower) || c.isDigit) := rfl
  rw [ranges, Bool.or_eq_true, Bool.or_eq_true, isUpper_iff, isLower_iff, isDigit_iff]

theorem isBlank_of_isAlphanum {c : Char} (plain : c.isAlphanum = true) : isBlank c = false := by
  rw [isAlphanum_iff] at plain
  exact isBlank_of_printable (by omega) (by omega)

theorem mem_of_mem_lower {mark : Char} (other : mark.isLower = false) {text : Text}
    (member : mark ∈ lower text) : mark ∈ text := by
  obtain ⟨c, listed, rfl⟩ := List.mem_map.1 member
  by_cases upper : 65 ≤ c.toNat ∧ c.toNat ≤ 90
  · have small : c.toLower.isLower = true := by
      rw [isLower_iff, toNat_toLower, if_pos upper]
      omega
    rw [small] at other
    cases other
  · have same : c.toLower = c := by rw [← Char.toNat_inj, toNat_toLower, if_neg upper]
    rwa [same]

/-! ## Numbers -/

theorem not_mem_ofNat {mark : Char} (other : mark.isDigit = false) (value : Nat) :
    mark ∉ ofNat value := by
  intro member
  rw [isDigit_of_mem_ofNat member] at other
  cases other

theorem decimal?_ofNat {bound value : Nat} (within : value ≤ bound) :
    decimal? bound (ofNat value) = some value := by
  have nonempty : ofNat value ≠ [] := Nat.toDigits_ne_nil
  have digits : (ofNat value).all Char.isDigit = true :=
    List.all_eq_true.2 fun _ member => isDigit_of_mem_ofNat member
  have plain : dropPlus (ofNat value) = ofNat value := by
    unfold dropPlus
    split
    · rename_i rest shape
      have signed : '+' ∈ ofNat value := by
        rw [shape]
        exact .head rest
      exact absurd signed (not_mem_ofNat (by decide) value)
    · rfl
  have back : digitsValue (ofNat value) = value := Nat.ofDigitChars_toDigits (by decide) (by decide)
  simp [decimal?, plain, nonempty, digits, back, within]

private theorem solid_of_decimal? {bound value : Nat} {text : Text}
    (read : decimal? bound text = some value) :
    text ≠ [] ∧ ∀ c ∈ text, isBlank c = false := by
  have written : dropPlus text ≠ [] ∧ ∀ c ∈ dropPlus text, c.isDigit = true := by
    rw [decimal?] at read
    split at read
    · cases read
    · rename_i digits
      simpa [List.isEmpty_iff] using digits
  have solid : ∀ c ∈ dropPlus text, isBlank c = false := by
    intro c member
    obtain ⟨low, high⟩ := isDigit_iff.1 (written.2 c member)
    exact isBlank_of_printable (by omega) (by omega)
  have sign : text = dropPlus text ∨ text = '+' :: dropPlus text := by
    unfold dropPlus
    split <;> simp
  rcases sign with whole | whole <;> rw [whole]
  · exact ⟨written.1, solid⟩
  · exact ⟨List.cons_ne_nil _ _, List.forall_mem_cons.2 ⟨by decide, solid⟩⟩

end Text

namespace Target

/-! ## Schemes -/

structure IsSchemeName (name : Text) : Prop where
  head : ∃ c ∈ name.head?, c.isAlpha = true
  chars : ∀ c ∈ name, isSchemeChar c = true

private theorem isSchemeName_name (scheme : Scheme) : IsSchemeName scheme.name := by
  cases scheme <;> exact ⟨⟨'h', rfl, by decide⟩, List.all_eq_true.1 (by decide)⟩

theorem splitScheme?_eq_some_iff {url name after : Text} :
    splitScheme? url = some (name, after) ↔
      IsSchemeName name ∧ url = name ++ "://".toList ++ after := by
  constructor
  · intro cut
    unfold splitScheme? at cut
    split at cut
    · rename_i first rest following front back
      split at cut
      · rename_i alpha
        cases cut
        have whole := List.takeWhile_append_dropWhile (p := isSchemeChar) (l := url)
        rw [back, front] at whole
        refine ⟨⟨⟨first, rfl, alpha⟩, fun c member => ?_⟩, by simp [← whole]⟩
        rw [← front] at member
        exact List.all_eq_true.1 List.all_takeWhile c member
      · cases cut
    · cases cut
  · rintro ⟨⟨⟨first, head, alpha⟩, chars⟩, rfl⟩
    obtain ⟨rest, rfl⟩ : ∃ rest, name = first :: rest := ⟨_, List.eq_cons_of_mem_head? head⟩
    have front :
        (first :: rest ++ "://".toList ++ after).takeWhile isSchemeChar = first :: rest := by
      rw [List.append_assoc, List.takeWhile_append_of_pos chars]
      exact List.append_nil _
    have back : (first :: rest ++ "://".toList ++ after).dropWhile isSchemeChar =
        "://".toList ++ after := by
      rw [List.append_assoc, List.dropWhile_append_of_pos chars]
      rfl
    rw [splitScheme?, front, back]
    exact if_pos alpha

theorem schemeAndRest?_named (scheme : Scheme) (after : Text) :
    schemeAndRest? (scheme.name ++ "://".toList ++ after) = some (scheme, after) := by
  rw [schemeAndRest?, splitScheme?_eq_some_iff.2 ⟨isSchemeName_name scheme, rfl⟩]
  cases scheme <;> rfl

theorem isBlank_of_isSchemeChar {c : Char} (plain : isSchemeChar c = true) :
    Text.isBlank c = false := by
  simp only [isSchemeChar, Bool.or_eq_true, beq_iff_eq] at plain
  rcases plain with ((letter | rfl) | rfl) | rfl
  · exact Text.isBlank_of_isAlphanum letter
  all_goals decide

section

variable {mark : Char} (foreign : isSchemeChar mark = false) (apart : mark ∉ "://".toList)

include foreign apart

theorem not_mem_front {name : Text} (named : IsSchemeName name) : mark ∉ name ++ "://".toList := by
  intro member
  rcases List.mem_append.1 member with inside | later
  · simp [named.chars mark inside] at foreign
  · exact apart later

/-- A mark that no scheme has does not change which one is named before it. -/
theorem splitScheme?_append_cons (url rest : Text) :
    splitScheme? (url ++ mark :: rest) =
      (splitScheme? url).map fun (name, after) => (name, after ++ mark :: rest) := by
  cases cut : splitScheme? url with
  | some split =>
    obtain ⟨name, after⟩ := split
    obtain ⟨named, rfl⟩ := splitScheme?_eq_some_iff.1 cut
    exact splitScheme?_eq_some_iff.2 ⟨named, List.append_assoc _ _ _⟩
  | none =>
    rw [Option.map_none, Option.eq_none_iff_forall_not_mem]
    rintro ⟨name, after⟩ found
    obtain ⟨named, whole⟩ := splitScheme?_eq_some_iff.1 found
    obtain ⟨earlier, rfl⟩ := Text.prefix_append_cons (not_mem_front foreign apart named)
      ⟨after, whole.symm⟩
    rw [splitScheme?_eq_some_iff.2 ⟨named, rfl⟩] at cut
    cases cut

theorem schemeAndRest?_append_cons (url rest : Text) :
    schemeAndRest? (url ++ mark :: rest) =
      (schemeAndRest? url).map fun (scheme, after) => (scheme, after ++ mark :: rest) := by
  rw [schemeAndRest?, schemeAndRest?, splitScheme?_append_cons foreign apart]
  cases splitScheme? url with
  | some split => simp [Function.comp_def]
  | none => rfl

theorem mem_iff_of_schemeAndRest? {url after : Text} {scheme : Scheme}
    (named : schemeAndRest? url = some (scheme, after)) : mark ∈ url ↔ mark ∈ after := by
  rw [schemeAndRest?] at named
  cases cut : splitScheme? url with
  | some split =>
    obtain ⟨name, rest⟩ := split
    obtain ⟨valid, rfl⟩ := splitScheme?_eq_some_iff.1 cut
    rw [cut] at named
    obtain ⟨scheme, -, made⟩ := Option.map_eq_some_iff.1 named
    cases made
    rw [List.mem_append, or_iff_right (not_mem_front foreign apart valid)]
  | none =>
    rw [cut] at named
    cases named
    rfl

end

/-! ## Authorities -/

/-- A host alone, with the port of the scheme, or with a port after a colon. -/
inductive Names (scheme : Scheme) (host : Text) : Text → UInt16 → Prop
  | bare (single : ':' ∉ host) : Names scheme host host scheme.defaultPort
  | numbered {digits : Text} {number : Nat} (single : ':' ∉ digits)
      (read : Text.decimal? Text.max16 digits = some number) :
      Names scheme host (host ++ ':' :: digits) (UInt16.ofNat number)

variable {scheme : Scheme} {authority address host rest : Text} {port : UInt16}

theorem hostAndPort?_of_names (plain : '@' ∉ address) (names : Names scheme host address port)
    (nonempty : host ≠ []) (solid : ∀ c ∈ host, Text.isBlank c = false) :
    hostAndPort? scheme address = some (host, port) := by
  rw [hostAndPort?, Text.cutLast?_eq_none_iff.2 plain]
  cases names with
  | bare single =>
    rw [Text.cutLast?_eq_none_iff.2 single]
    exact Option.filter_eq_some_iff.2 ⟨rfl, by simpa using ⟨nonempty, solid⟩⟩
  | numbered single read =>
    rw [Text.cutLast?_append_cons single]
    exact Option.filter_eq_some_iff.2 ⟨by simp [read], by simpa using ⟨nonempty, solid⟩⟩

theorem names_of_hostAndPort? (plain : '@' ∉ address)
    (split : hostAndPort? scheme address = some (host, port)) :
    Names scheme host address port ∧ host ≠ [] ∧ ∀ c ∈ host, Text.isBlank c = false := by
  rw [hostAndPort?, Text.cutLast?_eq_none_iff.2 plain] at split
  obtain ⟨split, named⟩ := Option.filter_eq_some_iff.1 split
  refine ⟨?_, by simpa using named⟩
  cases cut : Text.cutLast? ':' address with
  | none =>
    rw [cut] at split
    cases split
    exact .bare (Text.cutLast?_eq_none_iff.1 cut)
  | some pair =>
    obtain ⟨front, digits⟩ := pair
    obtain ⟨rfl, single⟩ := Text.cutLast?_eq_some cut
    rw [cut] at split
    obtain ⟨number, read, made⟩ := Option.map_eq_some_iff.1 split
    cases made
    exact .numbered single read

private theorem hostAndPort?_append_cons (user : Text) (plain : '@' ∉ address) :
    hostAndPort? scheme (user ++ '@' :: address) = hostAndPort? scheme address := by
  rw [hostAndPort?, hostAndPort?, Text.cutLast?_append_cons plain,
    Text.cutLast?_eq_none_iff.2 plain]

private theorem exists_address (authority : Text) :
    ∃ address, address <:+ authority ∧ '@' ∉ address ∧
      ∀ scheme, hostAndPort? scheme authority = hostAndPort? scheme address := by
  cases cut : Text.cutLast? '@' authority with
  | none => exact ⟨authority, List.suffix_rfl, Text.cutLast?_eq_none_iff.1 cut, fun _ => rfl⟩
  | some split =>
    obtain ⟨user, address⟩ := split
    obtain ⟨rfl, plain⟩ := Text.cutLast?_eq_some cut
    exact ⟨address, ⟨user ++ ['@'], by simp⟩, plain, fun _ => hostAndPort?_append_cons user plain⟩

/-- What an authority is read from: it ends it, and begins with the host. -/
theorem exists_names (split : hostAndPort? scheme authority = some (host, port)) :
    ∃ address, address <:+ authority ∧ '@' ∉ address ∧ Names scheme host address port ∧
      host ≠ [] ∧ ∀ c ∈ host, Text.isBlank c = false := by
  obtain ⟨address, last, plain, same⟩ := exists_address authority
  rw [same scheme] at split
  exact ⟨address, last, plain, names_of_hostAndPort? plain split⟩

theorem Names.host_prefix (names : Names scheme host address port) : host <+: address := by
  cases names with
  | bare => exact List.prefix_rfl
  | numbered => exact List.prefix_append _ _

theorem Names.ne_nil (names : Names scheme host address port) (nonempty : host ≠ []) :
    address ≠ [] := by
  rintro rfl
  exact nonempty (List.prefix_nil.1 names.host_prefix)

theorem Names.eq_of_length (names : Names scheme host address port)
    (long : address.length ≤ host.length) : host = address ∧ ':' ∉ host := by
  cases names with
  | bare single => exact ⟨rfl, single⟩
  | numbered =>
    rw [List.length_append, List.length_cons] at long
    omega

theorem Names.eq_of_append_cons {digits : Text}
    (names : Names scheme host (rest ++ ':' :: digits) port) (single : ':' ∉ digits) :
    host = rest := by
  generalize whole : rest ++ ':' :: digits = address at names
  cases names with
  | bare bare => simp [← whole] at bare
  | numbered unmarked =>
    have cut := congrArg (Text.cutLast? ':') whole
    rw [Text.cutLast?_append_cons single, Text.cutLast?_append_cons unmarked] at cut
    cases cut
    rfl

theorem Names.isEnded (names : Names scheme host address port)
    (solid : ∀ c ∈ host, Text.isBlank c = false) : address.IsEnded := by
  cases names with
  | bare => exact Text.isEnded_of_solid solid
  | numbered single read =>
    obtain ⟨nonempty, digits⟩ := Text.solid_of_decimal? read
    exact (Text.isEnded_append_cons _).2
      (Text.isEnded_cons (fun empty => absurd empty nonempty) (Text.isEnded_of_solid digits))

theorem authority_ne_nil (split : hostAndPort? scheme authority = some (host, port)) :
    authority ≠ [] := by
  rintro rfl
  obtain ⟨address, last, -, names, nonempty, -⟩ := exists_names split
  exact names.ne_nil nonempty (List.suffix_nil.1 last)

theorem isEnded_of_hostAndPort? (split : hostAndPort? scheme authority = some (host, port)) :
    authority.IsEnded := by
  obtain ⟨address, ⟨user, rfl⟩, -, names, nonempty, solid⟩ := exists_names split
  obtain ⟨first, rest, rfl⟩ := List.exists_cons_of_ne_nil (names.ne_nil nonempty)
  exact (Text.isEnded_append_cons user).2 (names.isEnded solid)

/-! ## Paths -/

def IsAuthority (text : Text) : Prop :=
  ∀ c ∈ text, c ≠ '#' ∧ endsAuthority c = false

theorem isAuthority_iff {text : Text} :
    IsAuthority text ↔ '#' ∉ text ∧ '/' ∉ text ∧ '?' ∉ text := by
  constructor
  · intro uninterrupted
    refine ⟨fun member => (uninterrupted _ member).1 rfl, ?_, ?_⟩
    all_goals
      intro member
      have inside := (uninterrupted _ member).2
      simp [endsAuthority] at inside
  · rintro ⟨fragment, slash, query⟩ c member
    refine ⟨fun same => fragment (same ▸ member), ?_⟩
    rw [endsAuthority, Bool.or_eq_false_iff, beq_eq_false_iff_ne, beq_eq_false_iff_ne]
    exact ⟨fun same => slash (same ▸ member), fun same => query (same ▸ member)⟩

/-- What may follow an authority: a path, a query, a fragment, or nothing. -/
def IsTail (text : Text) : Prop :=
  ∀ c ∈ text.head?, c = '#' ∨ endsAuthority c = true

theorem isTail_cons {first : Char} (ends : endsAuthority first = true) (rest : Text) :
    IsTail (first :: rest) := by
  rintro c ⟨⟩
  exact .inr ends

private theorem exists_authority_append_tail (text : Text) :
    ∃ authority tail, text = authority ++ tail ∧ IsAuthority authority ∧ IsTail tail := by
  let inside (c : Char) : Bool := c != '#' && !endsAuthority c
  refine ⟨text.takeWhile inside, text.dropWhile inside,
    List.takeWhile_append_dropWhile.symm, fun c member => ?_, fun c head => ?_⟩
  · simpa [inside] using List.all_eq_true.1 List.all_takeWhile c member
  · have stops := List.head?_dropWhile_not inside text
    rw [Option.mem_def.1 head] at stops
    simpa [inside, Decidable.or_iff_not_imp_left] using stops

/-- What is left of a tail without the fragment does not belong to the authority. -/
theorem span_before_of_isTail {tail : Text} (follows : IsTail tail) :
    (Text.before '#' tail).takeWhile (fun c => !endsAuthority c) = [] ∧
      (Text.before '#' tail).dropWhile (fun c => !endsAuthority c) = Text.before '#' tail := by
  cases tail with
  | nil => exact ⟨rfl, rfl⟩
  | cons first rest =>
    rcases follows first rfl with rfl | ends
    · exact ⟨rfl, rfl⟩
    · have kept : Text.before '#' (first :: rest) = first :: Text.before '#' rest := by
        refine List.takeWhile_cons_of_pos ?_
        rw [decide_eq_true_iff]
        rintro rfl
        cases ends
      rw [kept]
      exact ⟨List.takeWhile_cons_of_neg (by simp [ends]),
        List.dropWhile_cons_of_neg (by simp [ends])⟩

/-- The authority ends where a path, a query or a fragment begins. -/
theorem ofClean?_of_named {url tail : Text}
    (named : schemeAndRest? url = some (scheme, authority ++ tail))
    (uninterrupted : IsAuthority authority) (follows : IsTail tail) :
    ofClean? url = (hostAndPort? scheme authority).map fun (host, port) =>
      ⟨scheme, Text.lower host, port, rooted (Text.before '#' tail)⟩ := by
  have cut : Text.before '#' (authority ++ tail) = authority ++ Text.before '#' tail :=
    List.takeWhile_append_of_pos fun c member => by simpa using (uninterrupted c member).1
  have within : ∀ c ∈ authority, (!endsAuthority c) = true := fun c member => by
    simp [(uninterrupted c member).2]
  obtain ⟨front, back⟩ := span_before_of_isTail follows
  rw [ofClean?, named]
  simp only [Option.bind_eq_bind, Option.bind_some, cut, List.takeWhile_append_of_pos within,
    List.dropWhile_append_of_pos within, front, back, List.append_nil]
  cases hostAndPort? scheme authority <;> rfl

theorem parse_eq_ok_iff {text : Text} {target : Target} :
    parse text = .ok target ↔ ofClean? (unescape (Text.trim text)) = some target := by
  unfold parse
  split <;> simp_all

/-- The authority of a URL and what follows it, with the target that they make. -/
structure Parts (url authority tail : Text) (target : Target) : Prop where
  named : schemeAndRest? (unescape (Text.trim url)) = some (target.scheme, authority ++ tail)
  uninterrupted : IsAuthority authority
  follows : IsTail tail
  split : ∃ host, hostAndPort? target.scheme authority = some (host, target.port) ∧
    target.host = Text.lower host
  path : target.path = rooted (Text.before '#' tail)

theorem exists_parts_of_parse {url : Text} {target : Target} (accepted : parse url = .ok target) :
    ∃ authority tail, Parts url authority tail target := by
  obtain ⟨scheme, after, host, port, named, -, -⟩ := exists_of_parse accepted
  obtain ⟨authority, tail, rfl, uninterrupted, follows⟩ := exists_authority_append_tail after
  rw [parse_eq_ok_iff, ofClean?_of_named named uninterrupted follows] at accepted
  obtain ⟨⟨host, port⟩, split, rfl⟩ := Option.map_eq_some_iff.1 accepted
  exact ⟨authority, tail, named, uninterrupted, follows, ⟨host, split, rfl⟩, rfl⟩

theorem Parts.parse_eq {url tail : Text} {target : Target}
    (parts : Parts url authority tail target) :
    parse url = .ok target := by
  obtain ⟨named, uninterrupted, follows, ⟨host, split, folded⟩, path⟩ := parts
  rw [parse_eq_ok_iff, ofClean?_of_named named uninterrupted follows, split, Option.map_some]
  simp only [← folded, ← path]

theorem mem_rooted_iff {mark : Char} (other : mark ≠ '/') {path : Text} :
    mark ∈ rooted path ↔ mark ∈ path := by
  fun_cases rooted path <;> simp [other]

theorem exists_rooted_before_eq_cons {tail : Text} (follows : IsTail tail) :
    ∃ rest, rooted (Text.before '#' tail) = '/' :: rest := by
  rw [← (span_before_of_isTail follows).2]
  exact exists_rooted_eq_cons _

end Target

end WebClient
