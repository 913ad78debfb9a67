import SealedLedger.Algorithm
import SealedLedger.Proofs.Text.Spelling
import SealedLedger.Proofs.Text.Trimming

/-!
# Which texts name an algorithm

A text names an algorithm by its spelling, which is what counts of it. The case of ASCII letters never counts, and neither do blanks
around the text. Dashes count in one case: a text is trimmed before its dashes are dropped, so a dash that stands outside of a blank
keeps this blank (`Algorithm.Sheltered`), and then the text names nothing (`Algorithm.ofName_of_sheltered`). Any other text names what it
names without dashes (`Algorithm.ofName_undashed`). Main statement: `Algorithm.ofName_up_to_shelter`.
-/

namespace SealedLedger.Algorithm

open Text

/-! ## Spellings -/

/-- A dash or an underscore. -/
def isDash (c : Char) : Bool :=
  c = '-' ∨ c = '_'

/-- The characters that are no dashes. -/
def dropDashes (cs : List Char) : List Char :=
  cs.filter fun c => !isDash c

/-- The text without its dashes and underscores. -/
def undashed (text : String) : String :=
  String.ofList (dropDashes text.toList)

/-- The plain names of the algorithms. -/
def plainNames : List (Algorithm × String) :=
  [(sha1, "SHA1"), (sha256, "SHA256"), (sha384, "SHA384"), (sha512, "SHA512")]

theorem spelling_eq (text : String) : spelling text = (dropDashes (trimChars text.toList)).map Char.toUpper := by
  have kept : ∀ c : Char, decide (c ≠ '-' ∧ c ≠ '_') = !isDash c := by
    intro c
    simp [isDash]
  rw [spelling, dropDashes, funext kept]

theorem ofName_congr {text other : String} (same : spelling text = spelling other) : ofName text = ofName other := by
  rw [ofName, ofName, same]

/-- A text names a supported algorithm if it has the spelling of its name. -/
theorem ofName_eq_iff {algorithm : Algorithm} (known : algorithm ≠ unknown) (text : String) :
    ofName text = algorithm ↔ spelling text = spelling algorithm.name := by
  constructor
  · rintro rfl
    cases found : supported.find? fun algorithm => spelling algorithm.name = spelling text with
    | none =>
      rw [ofName, found] at known
      exact absurd rfl known
    | some algorithm =>
      have named := List.find?_some found
      rw [ofName, found]
      exact (of_decide_eq_true named).symm
  · intro same
    rw [ofName_congr same, ofName_name]

theorem known_of_mem : ∀ entry ∈ plainNames, entry.1 ≠ unknown := by
  decide

theorem spelling_name_of_mem : ∀ entry ∈ plainNames, spelling entry.1.name = entry.2.toList := by
  decide +kernel

/-- A letter in upper case is no more of a blank or a dash than it was before, and only ASCII letters change. -/
theorem kept_toUpper (c : Char) : isBlank c.toUpper = isBlank c ∧ isDash c.toUpper = isDash c := by
  by_cases ascii : c.toNat < 128
  · have all : ∀ n < 128, isBlank (Char.ofNat n).toUpper = isBlank (Char.ofNat n) ∧
        isDash (Char.ofNat n).toUpper = isDash (Char.ofNat n) := by decide +kernel
    have one := all c.toNat ascii
    rwa [Char.ofNat_toNat] at one
  · have other : ¬(c.val ≥ 'a'.val ∧ c.val ≤ 'z'.val) := by
      rintro ⟨-, low⟩
      exact ascii (Nat.lt_of_le_of_lt (UInt32.le_iff_toNat_le.1 low) (by decide))
    have same : c.toUpper = c := dif_neg other
    rw [same]
    exact ⟨rfl, rfl⟩

/-- The case of letters may be dropped before all else. -/
theorem spelling_eq_map_toUpper (text : String) : spelling text = dropDashes (trimChars (text.toList.map Char.toUpper)) := by
  have dashes : (fun c => !isDash c) ∘ Char.toUpper = fun c => !isDash c := funext fun c => congrArg not (kept_toUpper c).2
  rw [spelling_eq, ← map_trimChars fun c => (kept_toUpper c).1, dropDashes, dropDashes, List.filter_map, dashes]

/-- The case of ASCII letters does not count. -/
theorem ofName_of_map_toUpper {text other : String} (same : other.toList.map Char.toUpper = text.toList.map Char.toUpper) :
    ofName other = ofName text := by
  apply ofName_congr
  rw [spelling_eq_map_toUpper, spelling_eq_map_toUpper, same]

/-- Blanks around a text do not count. -/
theorem ofName_append {before after : String} (blank : Blank before) (blank' : Blank after) (text : String) :
    ofName (before ++ text ++ after) = ofName text := by
  apply ofName_congr
  have blanks : ∀ c ∈ before.toList ++ after.toList, isBlank c = true := by
    intro c hc
    rcases List.mem_append.1 hc with hc | hc
    · exact blank c hc
    · exact blank' c hc
  rw [spelling_eq, spelling_eq, String.toList_append, String.toList_append, trimChars_append blanks]

/-! ## Dashes -/

/-- Blanks and dashes, a dash among them: trimming does not get past these. -/
def Shelter (cs : List Char) : Prop :=
  (∀ c ∈ cs, isBlank c = true ∨ isDash c = true) ∧ ∃ c ∈ cs, isDash c = true

theorem Shelter.reverse {cs : List Char} (shelter : Shelter cs) : Shelter cs.reverse := by
  obtain ⟨only, dash, member, isDash_dash⟩ := shelter
  exact ⟨fun c hc => only c (List.mem_reverse.1 hc), dash, List.mem_reverse.2 member, isDash_dash⟩

/-- A blank is kept from being trimmed by a dash, with nothing but blanks and dashes on that side of it. -/
def Sheltered (cs : List Char) : Prop :=
  ∃ front blank back, cs = front ++ blank :: back ∧ isBlank blank = true ∧ (Shelter front ∨ Shelter back)

theorem Sheltered.reverse {cs : List Char} (sheltered : Sheltered cs) : Sheltered cs.reverse := by
  obtain ⟨front, blank, back, rfl, isBlank_blank, shelter⟩ := sheltered
  exact ⟨back.reverse, blank, front.reverse, by simp, isBlank_blank, shelter.symm.imp Shelter.reverse Shelter.reverse⟩

theorem isBlank_of_isDash {c : Char} (dash : isDash c = true) : isBlank c = false := by
  rcases of_decide_eq_true dash with rfl | rfl
  · rfl
  · rfl

/-- Where a trimmed text has characters other than blanks and dashes and no blanks, there is no shelter before a blank: the blank was
trimmed with all before it, or it stands behind these characters. -/
theorem not_shelter {before core after front back : List Char} {blank : Char}
    (parts : before ++ core ++ after = front ++ blank :: back) (cut : ∀ c ∈ before ++ after, isBlank c = true)
    (solid : ∀ c ∈ core, isBlank c = false) (word : ∃ c ∈ core, isDash c = false) (isBlank_blank : isBlank blank = true) :
    ¬Shelter front := by
  rintro ⟨only, dash, member, isDash_dash⟩
  have apart : ¬∀ c ∈ core, c ∈ front := by
    intro inside
    obtain ⟨c, hc, other⟩ := word
    rcases only c (inside c hc) with blank | dash
    · rw [solid c hc] at blank
      cases blank
    · rw [other] at dash
      cases dash
  rw [List.append_assoc] at parts
  rcases List.append_eq_append_iff.1 parts with ⟨inner, rfl, rest⟩ | ⟨more, rfl, -⟩
  · rcases List.append_eq_append_iff.1 rest with ⟨gap, rfl, -⟩ | ⟨behind, rfl, next⟩
    · exact apart fun c hc => by simp [hc]
    · cases behind with
      | nil => exact apart fun c hc => by simpa using Or.inr hc
      | cons c behind =>
        obtain ⟨rfl, -⟩ := List.cons.inj next
        have kept := solid blank (by simp)
        rw [isBlank_blank] at kept
        cases kept
  · have trimmed := cut dash (by simp [member])
    rw [isBlank_of_isDash isDash_dash] at trimmed
    cases trimmed

theorem spelling_name (algorithm : Algorithm) :
    spelling algorithm.name ≠ [] ∧ ∀ c ∈ spelling algorithm.name, isBlank c = false := by
  have checked : spelling algorithm.name ≠ [] ∧ (spelling algorithm.name).all (fun c => !isBlank c) = true := by
    cases algorithm <;> decide +kernel
  exact ⟨checked.1, fun c hc => by simpa using List.all_eq_true.1 checked.2 c hc⟩

/-- No blank is sheltered where there are only blanks around characters that have no blanks and are not all dashes. -/
theorem not_sheltered {before core after : List Char} (cut : ∀ c ∈ before ++ after, isBlank c = true)
    (solid : ∀ c ∈ core, isBlank c = false) (word : ∃ c ∈ core, isDash c = false) : ¬Sheltered (before ++ core ++ after) := by
  rintro ⟨front, blank, back, parts, isBlank_blank, shelter | shelter⟩
  · exact not_shelter parts cut solid word isBlank_blank shelter
  · -- the same from the other end
    have turned : after.reverse ++ core.reverse ++ before.reverse = back.reverse ++ blank :: front.reverse := by
      simpa using congrArg List.reverse parts
    refine not_shelter turned (fun c hc => cut c ?_) (by simpa using solid) (by simpa using word) isBlank_blank shelter.reverse
    simpa [or_comm] using hc

/-- A text in which a blank is sheltered names nothing. -/
theorem ofName_of_sheltered {text : String} (sheltered : Sheltered text.toList) : ofName text = unknown := by
  by_contra known
  have named := (ofName_eq_iff known text).1 rfl
  obtain ⟨some, solid⟩ := spelling_name (ofName text)
  rw [← named, spelling_eq] at some solid
  obtain ⟨before, after, parts, cut⟩ := exists_trimChars text.toList
  rw [parts] at sheltered
  refine not_sheltered cut ?_ ?_ sheltered
  · intro c hc
    cases dash : isDash c with
    | true => exact isBlank_of_isDash dash
    | false =>
      rw [← (kept_toUpper c).1]
      exact solid _ (List.mem_map_of_mem (List.mem_filter.2 ⟨hc, by rw [dash]; rfl⟩))
  · obtain ⟨c, hc⟩ := List.exists_mem_of_ne_nil _ fun none => some (List.map_eq_nil_iff.2 none)
    obtain ⟨member, other⟩ := List.mem_filter.1 hc
    exact ⟨c, member, by simpa using other⟩

/-- Where trimmed characters start with a blank once the dashes are gone, it was sheltered. -/
theorem isBlank_of_dropDashes_eq_cons {before core after : List Char} (unsheltered : ¬Sheltered (before ++ core ++ after))
    (cut : ∀ c ∈ before, isBlank c = true) (trimmed : Trimmed core) {c : Char} {rest : List Char}
    (h : dropDashes core = c :: rest) : isBlank c = false := by
  by_contra blank
  have blank : isBlank c = true := by simpa using blank
  obtain ⟨front, back, rfl, dashes, -, -⟩ := List.filter_eq_cons_iff.1 h
  have dashes : ∀ d ∈ front, isDash d = true := fun d hd => by simpa using dashes d hd
  refine unsheltered ⟨before ++ front, c, back ++ after, by simp, blank, Or.inl ⟨?_, ?_⟩⟩
  · intro d hd
    rcases List.mem_append.1 hd with hd | hd
    · exact Or.inl (cut d hd)
    · exact Or.inr (dashes d hd)
  · cases front with
    | nil =>
      have kept := trimmed.first c back rfl
      rw [blank] at kept
      cases kept
    | cons d front => exact ⟨d, by simp, dashes d (by simp)⟩

/-- Where no blank is sheltered, dashes may be dropped before the rest is trimmed. -/
theorem dropDashes_trimChars {cs : List Char} (unsheltered : ¬Sheltered cs) :
    dropDashes (trimChars cs) = trimChars (dropDashes cs) := by
  obtain ⟨before, after, parts, cut⟩ := exists_trimChars cs
  have trimmed := trimmed_trimChars cs
  generalize trimChars cs = core at parts trimmed ⊢
  subst parts
  have kept : Trimmed (dropDashes core) := by
    constructor
    · intro c rest h
      exact isBlank_of_dropDashes_eq_cons unsheltered (fun d hd => cut d (List.mem_append_left _ hd)) trimmed h
    · intro c rest h
      have turned : ¬Sheltered (after.reverse ++ core.reverse ++ before.reverse) := by
        intro sheltered
        have back := sheltered.reverse
        simp only [List.reverse_append, List.reverse_reverse, ← List.append_assoc] at back
        exact unsheltered back
      rw [dropDashes, ← List.filter_reverse] at h
      exact isBlank_of_dropDashes_eq_cons turned (fun d hd => cut d (by simpa using Or.inr hd)) trimmed.reverse h
  have blanks : ∀ c ∈ dropDashes before ++ dropDashes after, isBlank c = true := by
    intro c hc
    rw [dropDashes, dropDashes, ← List.filter_append] at hc
    exact cut c (List.mem_filter.1 hc).1
  have dropped : dropDashes (before ++ core ++ after) = dropDashes before ++ dropDashes core ++ dropDashes after := by
    rw [dropDashes, List.filter_append, List.filter_append]
    rfl
  rw [dropped, trimChars_append blanks, kept.trimChars_eq]

/-- Where no blank is sheltered, a text names what it names without dashes. -/
theorem ofName_undashed {text : String} (unsheltered : ¬Sheltered text.toList) : ofName (undashed text) = ofName text := by
  apply ofName_congr
  have twice : ∀ cs, dropDashes (dropDashes cs) = dropDashes cs := by
    intro cs
    rw [dropDashes, dropDashes, List.filter_filter]
    simp only [Bool.and_self]
  rw [spelling_eq, spelling_eq, undashed, String.toList_ofList, ← dropDashes_trimChars unsheltered, twice]

/-- A text stands for an algorithm if no blank is sheltered and, without its dashes and then trimmed, it is the plain name in some
case. -/
theorem ofName_eq_iff_of_mem {entry : Algorithm × String} (listed : entry ∈ plainNames) (text : String) :
    ofName text = entry.1 ↔
      ¬Sheltered text.toList ∧ (trim (undashed text)).toList.map Char.toUpper = entry.2.toList := by
  have known := known_of_mem entry listed
  by_cases sheltered : Sheltered text.toList
  · refine iff_of_false ?_ fun h => h.1 sheltered
    rw [ofName_of_sheltered sheltered]
    exact known.symm
  · rw [ofName_eq_iff known, spelling_eq, dropDashes_trimChars sheltered, spelling_name_of_mem entry listed, trim, undashed,
      String.toList_ofList, String.toList_ofList]
    exact (and_iff_right sheltered).symm

/-- The plain names are those of all algorithms but the mark. -/
theorem exists_mem_plainNames {algorithm : Algorithm} (known : algorithm ≠ unknown) :
    ∃ entry ∈ plainNames, algorithm = entry.1 := by
  cases algorithm with
  | unknown => exact absurd rfl known
  | sha1 => exact ⟨(sha1, "SHA1"), by decide, rfl⟩
  | sha256 => exact ⟨(sha256, "SHA256"), by decide, rfl⟩
  | sha384 => exact ⟨(sha384, "SHA384"), by decide, rfl⟩
  | sha512 => exact ⟨(sha512, "SHA512"), by decide, rfl⟩

/-- What of a text decides which algorithm it names. The case of ASCII letters and blanks around the text never do. To drop all dashes
changes what is named if a blank is sheltered by one and the text without dashes names an algorithm, and in no other case. More generally,
of two texts that differ in dashes only both name the same, unless one of them shelters a blank, the other does not, and what is left
without dashes names an algorithm. So the texts that name an algorithm are those without a sheltered blank which, once the dashes are
dropped and the rest is trimmed, are one of the four plain names in some case, and that is the algorithm named. -/
theorem ofName_up_to_shelter (text : String) :
    (∀ other : String, other.toList.map Char.toUpper = text.toList.map Char.toUpper → ofName other = ofName text) ∧
      (∀ before after, Blank before → Blank after → ofName (before ++ text ++ after) = ofName text) ∧
      (ofName (undashed text) = ofName text ↔ ¬(Sheltered text.toList ∧ ofName (undashed text) ≠ unknown)) ∧
      (∀ other, undashed other = undashed text →
        (ofName other = ofName text ↔
          ¬(ofName (undashed text) ≠ unknown ∧ ¬(Sheltered other.toList ↔ Sheltered text.toList)))) ∧
      (ofName text ≠ unknown ↔ ¬Sheltered text.toList ∧
        ∃ entry ∈ plainNames, (trim (undashed text)).toList.map Char.toUpper = entry.2.toList) ∧
      ∀ entry ∈ plainNames, ofName text = entry.1 ↔
        ¬Sheltered text.toList ∧ (trim (undashed text)).toList.map Char.toUpper = entry.2.toList := by
  refine ⟨fun other same => ofName_of_map_toUpper same, fun before after blank blank' => ofName_append blank blank' text,
    ?_, ?_, ?_, fun entry listed => ofName_eq_iff_of_mem listed text⟩
  · by_cases sheltered : Sheltered text.toList
    · simp [ofName_of_sheltered sheltered, sheltered]
    · simp [ofName_undashed sheltered, sheltered]
  · intro other same
    by_cases sheltered : Sheltered text.toList <;> by_cases sheltered' : Sheltered other.toList
    · simp [ofName_of_sheltered sheltered, ofName_of_sheltered sheltered', sheltered, sheltered']
    · simp [ofName_of_sheltered sheltered, ← ofName_undashed sheltered', same, sheltered, sheltered']
    · simp [ofName_of_sheltered sheltered', ← ofName_undashed sheltered, sheltered, sheltered', eq_comm]
    · simp [← ofName_undashed sheltered, ← ofName_undashed sheltered', same, sheltered, sheltered']
  · constructor
    · intro known
      obtain ⟨entry, listed, named⟩ := exists_mem_plainNames known
      obtain ⟨unsheltered, plain⟩ := (ofName_eq_iff_of_mem listed text).1 named
      exact ⟨unsheltered, entry, listed, plain⟩
    · rintro ⟨unsheltered, entry, listed, plain⟩
      rw [(ofName_eq_iff_of_mem listed text).2 ⟨unsheltered, plain⟩]
      exact known_of_mem entry listed

/-- Dashes inside and at the end, blanks of two kinds around and letters in both cases: SHA-256 is still named. -/
theorem ofName_up_to_shelter_mixed :
    ofName "sHA-_256-" = sha256 ∧ ofName ("\u3000" ++ "Sha-_256-" ++ "\n") = sha256 ∧ ofName "_S-ha256" = sha256 := by
  obtain ⟨case, blanks, -, dashes, -, names⟩ := ofName_up_to_shelter "Sha-_256-"
  obtain ⟨-, -, -, -, -, names'⟩ := ofName_up_to_shelter "_S-ha256"
  have named : ofName "Sha-_256-" = sha256 := by decide +kernel
  have unsheltered := ((names (sha256, "SHA256") (by decide)).1 named).1
  have unsheltered' := ((names' (sha256, "SHA256") (by decide)).1 (by decide +kernel)).1
  refine ⟨(case "sHA-_256-" (by decide)).trans named, (blanks "\u3000" "\n" ?_ ?_).trans named, ?_⟩
  · exact List.all_eq_true.1 rfl
  · exact List.all_eq_true.1 rfl
  · exact ((dashes "_S-ha256" (by decide +kernel)).2 fun h => h.2 (iff_of_false unsheltered' unsheltered)).trans named

/-- A dash that stands outside of a blank counts: without it the text is a name of SHA-1, and so it is with the dash moved behind the
blank. -/
theorem ofName_behind_dash :
    ofName "- SHA1" = unknown ∧ undashed "- SHA1" = " SHA1" ∧ ofName " SHA1" = sha1 ∧ ofName " -SHA1" = sha1 ∧
      (trim (undashed "- SHA1")).toList.map Char.toUpper = "SHA1".toList ∧
      ¬∀ text, ofName (undashed text) = ofName text := by
  refine ⟨by decide +kernel, by decide +kernel, by decide +kernel, by decide +kernel, by decide +kernel, fun all => ?_⟩
  exact absurd (all "- SHA1") (by decide +kernel)

end SealedLedger.Algorithm
