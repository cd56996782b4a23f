import Keyring.Credential
import Keyring.Proofs.Quoted
/-!
# Which credentials are the same

Two credentials are the same exactly if they are spelled out alike, and exactly if they agree on the
identifier, the type and the two files (`describe_faithful`): a text between quotes tells where it ends,
so no field can pass for the ones that follow it. Sets make no other difference, whatever the hash is.
-/

namespace Keyring.Credential

variable {a b c : Credential} {p q : Option Path} {more other : String}

theorem same_iff : a.same b = true ↔ a.compared = b.compared := by
  simp [same, compared, and_assoc]

/-! ## Spelled out -/

/-- The first letter tells whether there is a path. -/
theorem describePath_append_ne (p : Path) (more other : String) :
    describePath none ++ more ≠ describePath (some p) ++ other := by
  intro h
  have hlist := congrArg (fun s => s.toList.head?) h
  simp [describePath] at hlist

/-- A path that is spelled out tells what follows it. -/
theorem describePath_append_inj :
    describePath p ++ more = describePath q ++ other ↔ p = q ∧ more = other := by
  refine ⟨fun h => ?_, fun ⟨hpq, hmore⟩ => by rw [hpq, hmore]⟩
  cases p with
  | none =>
    cases q with
    | none => exact ⟨rfl, (String.append_right_inj _).1 h⟩
    | some q => exact absurd h (describePath_append_ne q more other)
  | some p =>
    cases q with
    | none => exact absurd h.symm (describePath_append_ne p other more)
    | some q =>
      simp only [describePath, String.append_assoc] at h
      obtain ⟨hpath, h⟩ := Text.quoted_append_inj.1 ((String.append_right_inj _).1 h)
      exact ⟨congrArg some (Path.toString_inj.1 hpath), (String.append_right_inj _).1 h⟩

theorem describe_eq (c : Credential) : c.describe =
    "SigningCredential(identifier=" ++ (Text.quoted c.identifier ++
      (", key_type=" ++ (Text.quoted c.keyType ++
        (", source=" ++ (describePath c.source? ++
          (", keystore_file=" ++ (describePath c.keystoreFile? ++ ")"))))))) := by
  delta describe
  simp only [String.append_assoc]

/-- The fields are told one after the other. -/
theorem compared_eq_of_describe_eq (h : a.describe = b.describe) : a.compared = b.compared := by
  rw [describe_eq, describe_eq] at h
  obtain ⟨hidentifier, h⟩ := Text.quoted_append_inj.1 ((String.append_right_inj _).1 h)
  obtain ⟨hkeyType, h⟩ := Text.quoted_append_inj.1 ((String.append_right_inj _).1 h)
  obtain ⟨hsource, h⟩ := describePath_append_inj.1 ((String.append_right_inj _).1 h)
  obtain ⟨hkeystoreFile, -⟩ := describePath_append_inj.1 ((String.append_right_inj _).1 h)
  rw [compared, hidentifier, hkeyType, hsource, hkeystoreFile, compared]

theorem describe_eq_of_compared_eq (h : a.compared = b.compared) : a.describe = b.describe := by
  simp only [compared, Prod.mk.injEq] at h
  obtain ⟨hidentifier, hkeyType, hsource, hkeystoreFile⟩ := h
  rw [describe_eq, describe_eq, hidentifier, hkeyType, hsource, hkeystoreFile]

/-! ## Sets -/

/-- Credentials that are the same have the same hash, so the hash keeps none of them apart. -/
theorem isAmong_eq (hash : String × String × Option Path × Option Path → Int) (c : Credential)
    (members : List Credential) : isAmong hash c members = members.any (·.same c) := by
  refine congrArg members.any (funext fun d => ?_)
  cases hsame : d.same c with
  | false => simp
  | true => simp [same_iff.1 hsame]

theorem length_distinct_pair (hash : String × String × Option Path × Option Path → Int)
    (a b : Credential) : (distinct hash [a, b]).length = if a.same b then 1 else 2 := by
  simp only [distinct, List.foldl_cons, List.foldl_nil, isAmong_eq, List.any_nil]
  cases hsame : a.same b <;> simp [hsame]

/-- Two credentials are the same exactly if they are spelled out alike, and exactly if they agree on what
may be shown of them, whatever their secrets and passwords are. A set of the two has one member then, and
two otherwise. -/
theorem describe_faithful (a b : Credential) :
    (a.same b = true ↔ a.describe = b.describe) ∧
    (a.describe = b.describe ↔ a.identifier = b.identifier ∧ a.keyType = b.keyType ∧
      a.source? = b.source? ∧ a.keystoreFile? = b.keystoreFile?) ∧
    ∀ hash, ((distinct hash [a, b]).length = 1 ↔ a.same b = true) ∧
      ((distinct hash [a, b]).length = 2 ↔ a.same b = false) := by
  have hdescribe : a.describe = b.describe ↔ a.compared = b.compared :=
    ⟨compared_eq_of_describe_eq, describe_eq_of_compared_eq⟩
  refine ⟨same_iff.trans hdescribe.symm, ?_, fun hash => ?_⟩
  · rw [hdescribe]
    simp only [compared, Prod.mk.injEq]
  · rw [length_distinct_pair]
    cases a.same b <;> simp

end Keyring.Credential
