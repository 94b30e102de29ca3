import Bindle.Proofs.Invoice.Validity
import Bindle.Proofs.Version.Reading

/-!
# Names of invoices

An invoice is named after its bindle and its version, with a slash between them. A bindle's name may
have slashes of its own, but the text of a version never has one, so the last slash of the name
divides it and both parts can be had back. The version is written as it was read, blanks around it
aside. So invoices of the same name say the same of their bindle's name and version, and a digest
of the name never stands for two different pairs of them by one text.

* `append_slash_inj`: a text divided at its last slash.
* `Invoice.name_of_draft`: the name of an invoice, in the words of its draft.
* `Invoice.name_eq_iff`: which invoices have the same name.
-/

namespace Bindle

/-- Two texts with a slash and no slash behind it are divided there in the same way. -/
theorem append_slash_inj {a b v w : List Char} (hv : '/' ∉ v) (hw : '/' ∉ w) :
    a ++ '/' :: v = b ++ '/' :: w ↔ a = b ∧ v = w := by
  constructor
  · intro h
    rcases List.append_eq_append_iff.1 h with ⟨between, hb, hrest⟩ | ⟨between, ha, hrest⟩
    · cases between with
      | nil => simp_all
      | cons c more =>
        -- the slash in front of `w` would stand in `v`
        have hmem : v = more ++ '/' :: w := (List.cons.inj hrest).2
        exact absurd (hmem ▸ List.mem_append_right _ List.mem_cons_self) hv
    · cases between with
      | nil => simp_all
      | cons c more =>
        have hmem : w = more ++ '/' :: v := (List.cons.inj hrest).2
        exact absurd (hmem ▸ List.mem_append_right _ List.mem_cons_self) hw
  · rintro ⟨rfl, rfl⟩
    rfl

namespace Invoice

variable {draft other : InvoiceDraft} {i k : Invoice}

/-- The version of an invoice is written as its draft has it, without the blanks around it. -/
theorem toText_version (hi : Invoice.ofDraft draft = .ok i) :
    i.bindle.version.toText = Text.trim draft.bindle.version :=
  Version.toText_of_parse (ofDraft_eq_ok_iff.1 hi).2.1.bindle.version

theorem name_of_draft (hi : Invoice.ofDraft draft = .ok i) :
    i.name = draft.bindle.name ++ "/" ++ Text.trim draft.bindle.version := by
  rw [name, toText_version hi, (ofDraft_eq_ok_iff.1 hi).2.1.bindle.name]

theorem slash_not_mem_version (hi : Invoice.ofDraft draft = .ok i) :
    '/' ∉ (Text.trim draft.bindle.version).toList := by
  intro hslash
  have hchars := Version.isVersionChar_of_parse (ofDraft_eq_ok_iff.1 hi).2.1.bindle.version
  exact absurd (hchars '/' hslash) (by decide)

/-- **The name of an invoice is a faithful key.** It is the name of the bindle, a slash and the
trimmed version, and it is the text whose digest is the storage key. Two invoices have the same
name exactly when their drafts have the same bindle name and, trimmed, the same version. -/
theorem name_eq_iff (hi : Invoice.ofDraft draft = .ok i) (hk : Invoice.ofDraft other = .ok k) :
    i.name = draft.bindle.name ++ "/" ++ Text.trim draft.bindle.version ∧
      i.canonicalName =
        Blake3.hexDigest (draft.bindle.name ++ "/" ++ Text.trim draft.bindle.version) ∧
      (i.name = k.name ↔ draft.bindle.name = other.bindle.name ∧
        Text.trim draft.bindle.version = Text.trim other.bindle.version) := by
  have hname := name_of_draft hi
  refine ⟨hname, by rw [canonicalName, hname], ?_⟩
  have hdivide := append_slash_inj (a := draft.bindle.name.toList) (b := other.bindle.name.toList)
    (slash_not_mem_version hi) (slash_not_mem_version hk)
  rw [hname, name_of_draft hk, ← String.toList_inj]
  simpa [String.toList_inj] using hdivide

end Invoice

namespace Worked

/-- The weather with another bindle name and another version. -/
def renamed (name version : String) : InvoiceDraft :=
  { invoice.toDraft with bindle := { name, version } }

/-- The release candidate `0.1.0-rc.1+b.7` of a bindle. -/
def candidateOf (name : String) : Invoice :=
  { invoice with bindle := ⟨name, ⟨0, 1, 0, [.word "rc", .number 1], ["b", "7"]⟩, [], none⟩ }

/-- A bindle's name with a slash in it, and a version with all its parts and with blanks around it.
The bindle that is named by the part in front of the slash has another name. -/
theorem name_ne_candidateOf :
    Invoice.ofDraft (renamed "sky/weather" " 0.1.0-rc.1+b.7 ") = .ok (candidateOf "sky/weather") ∧
      Invoice.ofDraft (renamed "sky" "0.1.0-rc.1+b.7") = .ok (candidateOf "sky") ∧
      (candidateOf "sky/weather").name = "sky/weather/0.1.0-rc.1+b.7" ∧
      (candidateOf "sky/weather").name ≠ (candidateOf "sky").name := by
  have hweather : Invoice.ofDraft (renamed "sky/weather" " 0.1.0-rc.1+b.7 ") =
      .ok (candidateOf "sky/weather") := by decide +kernel
  have hsky : Invoice.ofDraft (renamed "sky" "0.1.0-rc.1+b.7") = .ok (candidateOf "sky") := by
    decide +kernel
  obtain ⟨hname, -, hsame⟩ := Invoice.name_eq_iff hweather hsky
  refine ⟨hweather, hsky, ?_, fun heq => ?_⟩
  · rw [hname]
    decide +kernel
  · exact absurd (hsame.1 heq).1 (by decide)

end Worked

end Bindle
