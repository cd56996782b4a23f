import Keyring.Metadata
import Keyring.Proofs.Outcome
/-!
# Paths in the metadata

A text that does not start with a slash names a path below the directory of the metadata, wherever the
homes are, unless it goes home (`Path.goesHome`): it starts with a tilde, or with single dots and slashes
and then a tilde, since those are dropped before the tilde is looked for (`resolve_relative_iff`). A text
that goes home leads to a home directory, and nowhere if that is not known.
-/

namespace Keyring

open Outcome

/-! ## Texts that go home -/

namespace Path

/-- Whether a text has a tilde after nothing but slashes and single dots. -/
def goesHome : List Char → Bool
  | '~' :: _ => true
  | '/' :: cs => goesHome cs
  | '.' :: '/' :: cs => goesHome cs
  | _ => false

/-- The path with the components of a text after its own. -/
def followedBy (p : Path) (s : String) : Path where
  root := p.root
  parts := p.parts ++ components s
  isName_of_mem := fun _ h => (List.mem_append.1 h).elim (p.isName_of_mem _) isName_of_mem_components

variable {s user : String} {c : Char} {cs : List Char} {rest : List String}

theorem components_slash_cons (cs : List Char) :
    components (String.ofList ('/' :: cs)) = components (String.ofList cs) := by
  simp [components, Text.split_cons_self]

theorem components_dot_slash_cons (cs : List Char) :
    components (String.ofList ('.' :: '/' :: cs)) = components (String.ofList cs) := by
  simp [components, Text.split]

theorem split_ne_nil_cons {d : Char} (hd : d ≠ '/') (cs : List Char) (pieces : List (List Char)) :
    Text.split '/' (d :: cs) ≠ [] :: pieces := by
  rw [Text.split, if_neg hd]
  split <;> simp

/-- Any other character than a slash or a lone dot starts a component. -/
theorem exists_components_cons (hslash : c ≠ '/') (hdot : c = '.' → ∃ d ds, cs = d :: ds ∧ d ≠ '/') :
    ∃ piece rest, components (String.ofList (c :: cs)) = String.ofList (c :: piece) :: rest := by
  cases hs : Text.split '/' cs with
  | nil => exact absurd hs (Text.split_ne_nil '/' cs)
  | cons piece pieces =>
    have hkeep : String.ofList (c :: piece) ≠ "" ∧ String.ofList (c :: piece) ≠ "." := by
      refine ⟨by simp [← String.toList_inj], fun hlone => ?_⟩
      obtain ⟨rfl, rfl⟩ : c = '.' ∧ piece = [] := by simpa [← String.toList_inj] using hlone
      obtain ⟨d, ds, rfl, hd⟩ := hdot rfl
      exact split_ne_nil_cons hd ds pieces hs
    refine ⟨piece, (pieces.map String.ofList).filter fun p => p ≠ "" ∧ p ≠ ".", ?_⟩
    rw [components, String.toList_ofList, Text.split, if_neg hslash, hs, List.map_cons,
      List.filter_cons_of_pos (by simpa using hkeep)]

theorem ofList_tilde_cons (cs : List Char) : String.ofList ('~' :: cs) = "~" ++ String.ofList cs := by
  rw [← String.toList_inj]
  simp

theorem head?_tilde_append (user : String) : ("~" ++ user).toList.head? = some '~' := by
  simp

/-- A text goes home exactly if its first component starts with a tilde. -/
theorem goesHome_iff (cs : List Char) : goesHome cs = true ↔
    ∃ user rest, components (String.ofList cs) = ("~" ++ user) :: rest := by
  fun_induction goesHome cs with
  | case1 cs =>
    have htilde : '~' = '.' → ∃ d ds, cs = d :: ds ∧ d ≠ '/' := fun h => absurd h (by decide)
    obtain ⟨piece, rest, hparts⟩ := exists_components_cons (by decide) htilde
    exact ⟨fun _ => ⟨String.ofList piece, rest, hparts.trans (by rw [ofList_tilde_cons])⟩, fun _ => rfl⟩
  | case2 cs ih => rw [components_slash_cons, ih]
  | case3 cs ih => rw [components_dot_slash_cons, ih]
  | case4 cs htilde hslash hdot =>
    refine ⟨nofun, ?_⟩
    rintro ⟨user, rest, hparts⟩
    cases cs with
    | nil => simp [components, Text.split] at hparts
    | cons c cs =>
      by_cases hlone : c = '.' ∧ cs = []
      · obtain ⟨rfl, rfl⟩ := hlone
        simp [components, Text.split] at hparts
      · have hnext : c = '.' → ∃ d ds, cs = d :: ds ∧ d ≠ '/' := by
          rintro rfl
          obtain ⟨d, ds, rfl⟩ := List.exists_cons_of_ne_nil fun hnil => hlone ⟨rfl, hnil⟩
          exact ⟨d, ds, rfl, fun hd => hdot ds (by rw [hd])⟩
        obtain ⟨piece, rest', hparts'⟩ :=
          exists_components_cons (fun hc => hslash cs (by rw [hc])) hnext
        have hfirst := (List.cons_eq_cons.1 (hparts'.symm.trans hparts)).1
        have hhead := head?_tilde_append user
        rw [← hfirst, String.toList_ofList, List.head?_cons, Option.some.injEq] at hhead
        exact (htilde cs (by rw [hhead])).elim

theorem goesHome_toList_iff (s : String) : goesHome s.toList = true ↔
    ∃ user rest, components s = ("~" ++ user) :: rest := by
  rw [goesHome_iff, String.ofList_toList]

end Path

/-! ## Home directories -/

namespace Host

variable {h : Host} {user : String} {f : Failure} {p : Path}

/-- The home directory of a user, and without a name that of the user who runs the program. -/
def home? (h : Host) (user : String) : Option String :=
  if user = "" then some h.home else if hasNul user then none else h.homes.lookup user

/-- Why there is no home directory of a user: nobody can have the name, or nobody known has it. A home
directory that starts with a tilde does not count. -/
inductive HomeUnknown (h : Host) (user : String) : Failure → Prop
  | nul : hasNul user = true → HomeUnknown h user nulFailure
  | unknown : hasNul user = false →
    (∀ home, h.home? user = some home → (trimHome home).toList.head? = some '~') →
    HomeUnknown h user noHome

theorem homeOf_eq (h : Host) (user : String) : h.homeOf ("~" ++ user) =
    if hasNul user then .error nulFailure
    else
      match h.home? user with
      | some home =>
        if (trimHome home).toList.head? = some '~' then .error noHome
        else .ok (.ofString (trimHome home))
      | none => .error noHome := by
  have huser : String.ofList (("~" ++ user).toList.drop 1) = user := by
    rw [String.toList_append]
    exact String.ofList_toList
  simp only [homeOf, huser, home?]
  by_cases hempty : user = ""
  · subst hempty
    rfl
  · cases hasNul user with
    | true => simp [hempty]
    | false => cases h.homes.lookup user <;> simp [hempty]

theorem home?_of_hasNul (hnul : hasNul user = true) : h.home? user = none := by
  have hne : user ≠ "" := by
    rintro rfl
    cases hnul
  rw [home?, if_neg hne, if_pos hnul]

theorem homeOf_eq_ok : h.homeOf ("~" ++ user) = .ok p ↔
    ∃ home, h.home? user = some home ∧ (trimHome home).toList.head? ≠ some '~' ∧
      Path.ofString (trimHome home) = p := by
  rw [homeOf_eq]
  cases hnul : hasNul user with
  | true => simp [home?_of_hasNul hnul]
  | false =>
    cases h.home? user with
    | none => simp
    | some home =>
      by_cases htilde : (trimHome home).toList.head? = some '~' <;> simp [htilde]

theorem homeOf_eq_error : h.homeOf ("~" ++ user) = .error f ↔ h.HomeUnknown user f := by
  rw [homeOf_eq]
  constructor
  · intro e
    cases hnul : hasNul user with
    | true =>
      rw [hnul, if_pos rfl] at e
      exact Except.error.inj e ▸ .nul hnul
    | false =>
      simp only [hnul, Bool.false_eq_true, if_false] at e
      split at e
      · next home hhome =>
        split at e
        · next htilde =>
          refine Except.error.inj e ▸ .unknown hnul fun other hother => ?_
          rwa [← Option.some.inj (hhome.symm.trans hother)]
        · cases e
      · next hnone =>
        exact Except.error.inj e ▸ .unknown hnul fun other hother => by simp [hnone] at hother
  · rintro (hnul | ⟨hnul, htilde⟩)
    · rw [if_pos hnul]
    · simp only [hnul, Bool.false_eq_true, if_false]
      split
      · next home hhome => rw [if_pos (htilde home hhome)]
      · rfl

/-- A path keeps its first component unless that starts with a tilde. -/
theorem expandHome_of_head?_ne (h : Host) (hfirst : ∀ first ∈ p.parts.head?, first.toList.head? ≠ some '~') :
    h.expandHome p = .ok p := by
  unfold expandHome
  split
  · next first rest hroot hparts => rw [if_neg (hfirst first (by rw [hparts]; rfl))]
  · rfl

theorem expandHome_of_isAbsolute (h : Host) (hroot : p.isAbsolute = true) : h.expandHome p = .ok p := by
  unfold expandHome
  split
  · next hrelative _ => simp [Path.isAbsolute, hrelative] at hroot
  · rfl

theorem expandHome_of_tilde (h : Host) {rest : List String} (hroot : p.root = .relative)
    (hparts : p.parts = ("~" ++ user) :: rest) :
    h.expandHome p = h.homeOf ("~" ++ user) >>= fun home => .ok (home.join p.withoutFirst) := by
  unfold expandHome
  rw [hroot, hparts]
  simp only [Path.head?_tilde_append, if_true]
  rfl

end Host

/-! ## Paths -/

namespace Metadata

variable {h : Host} {baseDir p : Path} {s user : String} {v : Datum} {f : Failure} {rest : List String}

theorem root_ofString (hslash : s.toList.head? ≠ some '/') : (Path.ofString s).root = .relative :=
  Path.ofSlashes_takeWhile .relative hslash

theorem join_ofString (hslash : s.toList.head? ≠ some '/') (baseDir : Path) :
    baseDir.join (.ofString s) = baseDir.followedBy s := by
  rw [Path.join, if_neg (by simp [Path.isAbsolute, root_ofString hslash])]
  rfl

theorem resolve_of_text (hv : v.text? = some s) (h : Host) (baseDir : Path) :
    resolve h baseDir v = h.expandHome (.ofString s) >>= fun p => .ok (baseDir.join p) := by
  rw [resolve, textOf, hv]
  rfl

theorem resolve_of_not_goesHome (hv : v.text? = some s) (hslash : s.toList.head? ≠ some '/')
    (hhome : Path.goesHome s.toList = false) (h : Host) (baseDir : Path) :
    resolve h baseDir v = .ok (baseDir.followedBy s) := by
  have hfirst : ∀ first ∈ (Path.ofString s).parts.head?, first.toList.head? ≠ some '~' := by
    intro first hmem htilde
    obtain ⟨rest, hparts⟩ := List.head?_eq_some_iff.1 hmem
    obtain ⟨user, huser⟩ := List.head?_eq_some_iff.1 htilde
    have hgoes : Path.goesHome s.toList = true := by
      refine (Path.goesHome_toList_iff s).2 ⟨String.ofList user, rest, ?_⟩
      rw [← Path.ofList_tilde_cons, ← huser, String.ofList_toList]
      exact hparts
    rw [hhome] at hgoes
    cases hgoes
  rw [resolve_of_text hv, Host.expandHome_of_head?_ne h hfirst, ← join_ofString hslash]
  rfl

theorem resolve_of_tilde (hv : v.text? = some s) (hslash : s.toList.head? ≠ some '/')
    (hparts : Path.components s = ("~" ++ user) :: rest) (h : Host) (baseDir : Path) :
    resolve h baseDir v = h.homeOf ("~" ++ user) >>= fun home =>
      .ok (baseDir.join (home.join (Path.ofString s).withoutFirst)) := by
  rw [resolve_of_text hv, Host.expandHome_of_tilde h (root_ofString hslash) hparts, bind_assoc]
  rfl

theorem isAbsolute_ofString (hslash : s.toList.head? = some '/') :
    (Path.ofString s).isAbsolute = true := by
  obtain ⟨cs, hcs⟩ := List.head?_eq_some_iff.1 hslash
  have hroot : (Path.ofString s).root = .ofSlashes ((cs.takeWhile (· = '/')).length + 1) := by
    simp [Path.ofString, hcs]
  rw [Path.isAbsolute, hroot]
  cases (cs.takeWhile (· = '/')).length with
  | zero => rfl
  | succ n => cases n <;> rfl

/-- Why a value names no path: it cannot be written, or it goes to a home that is not known. -/
inductive Unresolved (h : Host) (v : Datum) : Failure → Prop
  | digits : v.text? = none → Unresolved h v tooLongFailure
  | home {s user : String} {rest : List String} {f : Failure} : v.text? = some s →
    s.toList.head? ≠ some '/' → Path.components s = ("~" ++ user) :: rest → h.HomeUnknown user f →
    Unresolved h v f

theorem resolve_error_of_tilde (hv : v.text? = some s) (hslash : s.toList.head? ≠ some '/')
    (hparts : Path.components s = ("~" ++ user) :: rest) :
    resolve h baseDir v = .error f ↔ h.HomeUnknown user f := by
  rw [resolve_of_tilde hv hslash hparts, bind_eq_error, Host.homeOf_eq_error]
  simp

theorem resolve_ok_of_tilde (hv : v.text? = some s) (hslash : s.toList.head? ≠ some '/')
    (hparts : Path.components s = ("~" ++ user) :: rest) : resolve h baseDir v = .ok p ↔
      ∃ home, h.home? user = some home ∧ (Host.trimHome home).toList.head? ≠ some '~' ∧
        baseDir.join ((Path.ofString (Host.trimHome home)).join (Path.ofString s).withoutFirst) = p := by
  simp only [resolve_of_tilde hv hslash hparts, bind_eq_ok, Host.homeOf_eq_ok, Except.ok.injEq]
  constructor
  · rintro ⟨_, ⟨home, hhome, htilde, rfl⟩, rfl⟩
    exact ⟨home, hhome, htilde, rfl⟩
  · rintro ⟨home, hhome, htilde, rfl⟩
    exact ⟨_, ⟨home, hhome, htilde, rfl⟩, rfl⟩

theorem resolve_eq_error : resolve h baseDir v = .error f ↔ Unresolved h v f := by
  constructor
  · intro e
    cases hv : v.text? with
    | none =>
      rw [resolve, textOf, hv] at e
      exact Except.error.inj e ▸ .digits hv
    | some s =>
      by_cases hslash : s.toList.head? = some '/'
      · rw [resolve_of_text hv, Host.expandHome_of_isAbsolute h (isAbsolute_ofString hslash)] at e
        cases e
      · cases hhome : Path.goesHome s.toList with
        | false =>
          rw [resolve_of_not_goesHome hv hslash hhome] at e
          cases e
        | true =>
          obtain ⟨user, rest, hparts⟩ := (Path.goesHome_toList_iff s).1 hhome
          exact .home hv hslash hparts ((resolve_error_of_tilde hv hslash hparts).1 e)
  · rintro (hv | ⟨hv, hslash, hparts, hunknown⟩)
    · rw [resolve, textOf, hv]
      rfl
    · exact (resolve_error_of_tilde hv hslash hparts).2 hunknown

/-- A host without homes but one that is not known. -/
def homeless : Host where
  files := .empty
  workingDirectory := []
  home := "~"

theorem exists_homeUnknown (user : String) : ∃ f, homeless.HomeUnknown user f := by
  cases hnul : hasNul user with
  | true => exact ⟨_, .nul hnul⟩
  | false =>
    refine ⟨_, .unknown hnul fun home hhome => ?_⟩
    rw [Host.home?] at hhome
    split at hhome
    · rw [← Option.some.inj hhome]
      decide
    · rw [hnul] at hhome
      cases hhome

/-- A text without a slash in front names the path with its components after those of the directory, on
every host, unless it goes home. Then it has a user in front, and names a path below the home of that
user, or none if there is no home. -/
theorem resolve_relative_iff (baseDir : Path) (s : String) (hslash : s.toList.head? ≠ some '/') :
    ((∀ h, resolve h baseDir (.str s) = .ok (baseDir.followedBy s)) ↔
      Path.goesHome s.toList = false) ∧
    (Path.goesHome s.toList = true → ∃ user rest, Path.components s = ("~" ++ user) :: rest ∧ ∀ h,
      (∀ f, resolve h baseDir (.str s) = .error f ↔ h.HomeUnknown user f) ∧
      ∀ p, resolve h baseDir (.str s) = .ok p ↔
        ∃ home, h.home? user = some home ∧ (Host.trimHome home).toList.head? ≠ some '~' ∧
          baseDir.join ((Path.ofString (Host.trimHome home)).join (Path.ofString s).withoutFirst) =
            p) := by
  have hv : (Datum.str s).text? = some s := rfl
  refine ⟨⟨fun hall => ?_, fun hhome h => resolve_of_not_goesHome hv hslash hhome h baseDir⟩,
    fun hhome => ?_⟩
  · cases hhome : Path.goesHome s.toList with
    | false => rfl
    | true =>
      obtain ⟨user, rest, hparts⟩ := (Path.goesHome_toList_iff s).1 hhome
      obtain ⟨f, hunknown⟩ := exists_homeUnknown user
      have e : resolve homeless baseDir (.str s) = .error f :=
        (resolve_error_of_tilde hv hslash hparts).2 hunknown
      rw [hall] at e
      cases e
  · obtain ⟨user, rest, hparts⟩ := (Path.goesHome_toList_iff s).1 hhome
    exact ⟨user, rest, hparts, fun h => ⟨fun _ => resolve_error_of_tilde hv hslash hparts,
      fun _ => resolve_ok_of_tilde hv hslash hparts⟩⟩

/-- Dots and slashes that lead nowhere are dropped, double dots are kept, and a tilde further on is a
character like others. -/
theorem resolve_relative_dots : "./a/.//../~b".toList.head? ≠ some '/' ∧
    (∀ h, resolve h (.ofString "keys") (.str "./a/.//../~b") =
      .ok ((Path.ofString "keys").followedBy "./a/.//../~b")) ∧
    toString ((Path.ofString "keys").followedBy "./a/.//../~b") = "keys/a/../~b" := by
  have hslash : "./a/.//../~b".toList.head? ≠ some '/' := by decide
  exact ⟨hslash, (resolve_relative_iff (.ofString "keys") _ hslash).1.2 (by decide), by decide⟩

/-- A text that starts with neither a slash nor a tilde may lead nowhere: once its dot is dropped, it goes
to the home of a user whom nobody knows. -/
theorem resolve_dotTilde : "./~old/k.json".toList.head? ≠ some '/' ∧
    "./~old/k.json".toList.head? ≠ some '~' ∧
    resolve homeless (.ofString "keys") (.str "./~old/k.json") = .error Host.noHome ∧
    toString ((Path.ofString "keys").followedBy "./~old/k.json") = "keys/~old/k.json" := by
  have hparts : Path.components "./~old/k.json" = ("~" ++ "old") :: ["k.json"] := by decide
  have hunresolved : Unresolved homeless (.str "./~old/k.json") Host.noHome :=
    .home rfl (by decide) hparts (.unknown (by decide) nofun)
  exact ⟨by decide, by decide, resolve_eq_error.2 hunresolved, by decide⟩

end Metadata

end Keyring
