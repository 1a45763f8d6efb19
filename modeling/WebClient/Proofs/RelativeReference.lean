import WebClient.Proofs.NormalUrl

/-!
# Relative references

A reference on a page that names neither a scheme nor a host is glued behind the origin of
the page and read again. It stays on that origin, whatever is in it.
-/

set_option autoImplicit false

namespace WebClient.Target

/-- A reference as it is resolved, without the blanks around it and with its escapes replaced. -/
def cleaned (reference : Text) : Text :=
  unescape (Text.trim reference)

def base (target : Target) (reference : Text) : Text :=
  match reference with
  | '/' :: _ => []
  | '?' :: _ => target.pathOnly
  | _ => target.directory

variable {target : Target} {reference : Text}

theorem resolve_of_cleaned_eq_nil (empty : cleaned reference = []) :
    target.resolve reference = target.url := by
  unfold cleaned at empty
  rw [resolve, empty]
  rfl

theorem resolve_of_unnamed (unnamed : splitScheme? (cleaned reference) = none)
    (hostless : ¬ "//".toList <+: cleaned reference) (nonempty : cleaned reference ≠ []) :
    target.resolve reference =
      target.origin ++ (target.base (cleaned reference) ++ cleaned reference) := by
  unfold cleaned at unnamed hostless nonempty ⊢
  rw [resolve, unnamed]
  generalize unescape (Text.trim reference) = reference at hostless nonempty ⊢
  rw [Option.isSome_none, if_neg Bool.false_ne_true]
  split
  · rename_i more
    exact absurd ⟨more, rfl⟩ hostless
  · rfl
  · simp [base]
  · contradiction
  · rename_i elsewhere unasked _
    have below : target.base reference = target.directory := by
      unfold base
      split
      · exact absurd rfl (elsewhere _)
      · exact absurd rfl (unasked _)
      · rfl
    rw [below, List.append_assoc]

theorem IsNormal.exists_pathOnly_eq_cons (normal : IsNormal target) :
    ∃ rest, target.pathOnly = '/' :: rest := by
  obtain ⟨rest, path⟩ := normal.rooted
  rw [pathOnly, path]
  exact ⟨Text.before '?' rest, rfl⟩

theorem IsNormal.exists_directory_eq_cons (normal : IsNormal target) :
    ∃ rest, target.directory = '/' :: rest := by
  obtain ⟨rest, path⟩ := normal.exists_pathOnly_eq_cons
  unfold directory
  cases cut : Text.cutLast? '/' target.pathOnly with
  | none => exact ⟨[], rfl⟩
  | some split =>
    obtain ⟨before, after⟩ := split
    rw [(Text.cutLast?_eq_some cut).1] at path
    cases before with
    | nil => exact ⟨[], rfl⟩
    | cons first before => exact ⟨before ++ ['/'], by rw [(List.cons.inj path).1]; rfl⟩

/-- What is put behind the origin begins with a slash, so that it ends the authority. -/
theorem IsNormal.exists_base_append_eq_cons (normal : IsNormal target) (reference : Text) :
    ∃ rest, target.base reference ++ reference = '/' :: rest := by
  unfold base
  split
  · exact ⟨_, rfl⟩
  · obtain ⟨rest, path⟩ := normal.exists_pathOnly_eq_cons
    rw [path]
    exact ⟨_, rfl⟩
  · obtain ⟨rest, path⟩ := normal.exists_directory_eq_cons
    rw [path]
    exact ⟨_, rfl⟩

theorem isEnded_cleaned (reference : Text) : (cleaned reference).IsEnded :=
  isEnded_unescape (Text.isEnded_trimEnd _)

/-- A reference that names neither a scheme nor a host is read on the origin of the page. An
empty one is the page itself; any other is a path behind the one it is put behind, without
a fragment. -/
theorem parse_resolve_of_relative (stable : parse target.url = .ok target)
    (unnamed : splitScheme? (cleaned reference) = none)
    (hostless : ¬ "//".toList <+: cleaned reference) :
    parse (target.resolve reference) =
      .ok { target with
        path := if cleaned reference = [] then target.path else
          Text.before '#' (unescape (target.base (cleaned reference) ++ cleaned reference)) } := by
  have normal := isNormal_of_parse stable
  by_cases empty : cleaned reference = []
  · rw [resolve_of_cleaned_eq_nil empty, if_pos empty]
    exact stable
  · have ended : (target.base (cleaned reference) ++ cleaned reference).IsEnded := by
      have ended := isEnded_cleaned reference
      obtain ⟨first, rest, shape⟩ := List.exists_cons_of_ne_nil empty
      rw [shape] at ended ⊢
      exact (Text.isEnded_append_cons _).2 ended
    rw [resolve_of_unnamed unnamed hostless empty, if_neg empty]
    exact (normal.isStable_of_parse_url stable).parse_origin_append normal
      (normal.exists_base_append_eq_cons _) ended

/-- The host in the query of the reference, and the one behind its slashes, are part of the path. -/
theorem parse_resolve_of_relative_of_embedded :
    parse "http://h.com:8080/a/b?q".toList = .ok ⟨.http, "h.com".toList, 8080, "/a/b?q".toList⟩ ∧
      parse (resolve ⟨.http, "h.com".toList, 8080, "/a/b?q".toList⟩
          " c//@evil.com:80/?u=http://evil.com/#top ".toList) =
        .ok ⟨.http, "h.com".toList, 8080, "/a/c//@evil.com:80/?u=http://evil.com/".toList⟩ :=
  ⟨by decide, parse_resolve_of_relative (by decide) (by decide) (by decide)⟩

end WebClient.Target
