import SpecDraft.Feature.Status
import SpecDraft.Proofs.Markdown.Heading
import SpecDraft.Proofs.Markdown.Label
import SpecDraft.Proofs.Markdown.Section

/-!
# The section of a debt document for a feature

The status of a feature comes from one section of the debt document, that of the first heading
whose title holds the name of the feature (`debtSection?_append`). A heading with just the name as
its title decides as long as no title before it holds the name too (`detect_titled`); a longer title
that stands earlier takes its place (`detect_by_longer_title`).
-/
set_option autoImplicit false

namespace SpecDraft.Status

open Text Markdown

/-- Whether a node is a heading whose title holds a name, up to letter case. -/
def Mentions (name : String) (node : Node) : Prop :=
  node.isHeading = true ∧ ∃ before here after, node.text.toList = before ++ (here ++ after) ∧
    SameLetters here name.toList

theorem isHeadingFor_containing_iff {name : String} {node : Node} :
    node.isHeadingFor (.containing name) = true ↔ Mentions name node := by
  rw [Node.isHeadingFor, Bool.and_eq_true, TitlePattern.fits_containing_iff, Mentions]

instance (name : String) (node : Node) : Decidable (Mentions name node) :=
  decidable_of_iff _ isHeadingFor_containing_iff

/-- What the status of a section is read from: its title and its text, in lower case. -/
def statement (found : Section) : String :=
  lower (found.heading.text ++ "\n" ++ blockText found.children)

/-- The status that a section marks: the best one of which it holds a marker. -/
def marked? (found : Section) : Option Status := all.find? (marks (statement found))

/-- A marker outweighs every phrase. -/
theorem ofSection?_of_marked {found : Section} {status : Status} (h : marked? found = some status) :
    ofSection? found = some status := by
  rw [marked?, statement] at h
  rw [ofSection?, ofContent?, h]

section Detect
variable {name : String} {debt : Document} {before after : List Node} {heading : Node} {level : Nat}

/-- **The section for a feature** is that of the first heading whose title holds the name. -/
theorem debtSection?_append (hnodes : debt.nodes = before ++ heading :: after)
    (hbefore : ∀ node ∈ before, ¬ Mentions name node) (hmentions : Mentions name heading)
    (hlevel : heading.level? = some level) :
    debtSection? name debt = some ⟨heading, level, after.takeWhile (!·.endsSection level)⟩ := by
  rw [debtSection?, hnodes]
  have hfits := isHeadingFor_containing_iff.mpr hmentions
  refine findSection?_append (fun node hnode => ?_) hfits hlevel
  rw [← Bool.not_eq_true, isHeadingFor_containing_iff]
  exact hbefore node hnode

/-- That section decides, and the criteria do where it states nothing. -/
theorem detect_append {α : Type} (criteria : List (Criterion α))
    (hnodes : debt.nodes = before ++ heading :: after)
    (hbefore : ∀ node ∈ before, ¬ Mentions name node) (hmentions : Mentions name heading)
    (hlevel : heading.level? = some level) :
    detect name criteria (some debt) =
      (ofSection? ⟨heading, level, after.takeWhile (!·.endsSection level)⟩).getD
        (ofCriteria criteria) := by
  rw [detect, Option.bind_some, debtSection?_append hnodes hbefore hmentions hlevel,
    Option.bind_some]
  cases ofSection? ⟨heading, level, after.takeWhile (!·.endsSection level)⟩ with
  | none => rfl
  | some status => rfl

theorem mentions_of_sameLetters (hlevel : heading.level? = some level)
    (htitle : SameLetters heading.text.toList name.toList) : Mentions name heading :=
  ⟨by rw [Node.isHeading, hlevel, Option.isSome_some], [], heading.text.toList, [], by simp, htitle⟩

end Detect

/-- **The status from a feature's own section.** Let a heading of the debt document have the name of
a feature as its title, up to letter case, and its section mark a status. If no title before it
holds the name, that is the status of the feature, whatever else the document has. Otherwise the
first title that holds the name decides: the status is the one that its section states, and where it
states none, the one that the criteria show. -/
theorem detect_titled {α : Type} (name : String) (criteria : List (Criterion α)) (debt : Document)
    (before after : List Node) (heading : Node) (level : Nat) (status : Status)
    (hnodes : debt.nodes = before ++ heading :: after) (hlevel : heading.level? = some level)
    (htitle : SameLetters heading.text.toList name.toList)
    (hmarked : marked? ⟨heading, level, after.takeWhile (!·.endsSection level)⟩ = some status) :
    ((∀ node ∈ before, ¬ Mentions name node) → detect name criteria (some debt) = status) ∧
    ∀ earlier other rest rank, before = earlier ++ other :: rest →
      (∀ node ∈ earlier, ¬ Mentions name node) → Mentions name other → other.level? = some rank →
      detect name criteria (some debt) =
        (ofSection? ⟨other, rank,
          (rest ++ heading :: after).takeWhile (!·.endsSection rank)⟩).getD
          (ofCriteria criteria) := by
  constructor
  · intro hbefore
    have hmentions := mentions_of_sameLetters hlevel htitle
    rw [detect_append criteria hnodes hbefore hmentions hlevel, ofSection?_of_marked hmarked,
      Option.getD_some]
  · intro earlier other rest rank hsplit hearlier hmentions hrank
    refine detect_append criteria ?_ hearlier hmentions hrank
    rw [hnodes, hsplit, List.append_assoc, List.cons_append]

/-- A debt document with a section for a feature, and one for another feature after it. -/
def ownSectionContent : String := "# Debt\n## SEARCH\n❌ MISSING\n## Search history\n✅ COMPLETE"

/-- The nodes of that document. -/
def ownSectionNodes : List Node := [
  ⟨.heading 1, "Debt", 1⟩, ⟨.heading 2, "SEARCH", 2⟩, ⟨.paragraph, "❌ MISSING", 3⟩,
  ⟨.heading 2, "Search history", 4⟩, ⟨.paragraph, "✅ COMPLETE", 5⟩]

theorem parse_ownSectionContent : Markdown.parse ownSectionContent = .ok ownSectionNodes := rfl

theorem detect_titled_sample : ∃ debt : Document,
    Document.parse ownSectionContent ⟨"/", ["debt.md"]⟩ "" = .ok debt ∧
    (∀ node ∈ debt.nodes.take 1, ¬ Mentions "Search" node) ∧
    SameLetters "SEARCH".toList "Search".toList ∧
    detect "Search" ([] : List Criterion) (some debt) = .missing := by
  obtain ⟨debt, hparse, hnodes⟩ :=
    Document.exists_parse parse_ownSectionContent ⟨"/", ["debt.md"]⟩ ""
  have hbefore : ∀ node ∈ ownSectionNodes.take 1, ¬ Mentions "Search" node := by decide +kernel
  have htitle : SameLetters "SEARCH".toList "Search".toList := by decide +kernel
  refine ⟨debt, hparse, hnodes ▸ hbefore, htitle, ?_⟩
  exact (detect_titled "Search" [] debt (ownSectionNodes.take 1) (ownSectionNodes.drop 2)
    ⟨.heading 2, "SEARCH", 2⟩ 2 .missing hnodes rfl htitle (by decide +kernel)).1 hbefore

/-- A debt document whose section for a feature comes after one for another feature with a longer
name. -/
def longerTitleContent : String := "## Advanced Search\n✅ COMPLETE\n## Search\n❌ MISSING"

/-- The nodes of that document. -/
def longerTitleNodes : List Node := [
  ⟨.heading 2, "Advanced Search", 1⟩, ⟨.paragraph, "✅ COMPLETE", 2⟩,
  ⟨.heading 2, "Search", 3⟩, ⟨.paragraph, "❌ MISSING", 4⟩]

theorem parse_longerTitleContent : Markdown.parse longerTitleContent = .ok longerTitleNodes := rfl

/-- **A longer title that stands earlier takes the place of the name**: the section of the feature
says that it is missing, and its status is that of the other feature. -/
theorem detect_by_longer_title : ∃ debt : Document,
    Document.parse longerTitleContent ⟨"/", ["debt.md"]⟩ "" = .ok debt ∧
    findSection? debt.nodes (.exactly ["Search"]) =
      some ⟨⟨.heading 2, "Search", 3⟩, 2, [⟨.paragraph, "❌ MISSING", 4⟩]⟩ ∧
    marked? ⟨⟨.heading 2, "Search", 3⟩, 2, [⟨.paragraph, "❌ MISSING", 4⟩]⟩ = some .missing ∧
    detect "Search" ([] : List Criterion) (some debt) = .complete := by
  obtain ⟨debt, hparse, hnodes⟩ :=
    Document.exists_parse parse_longerTitleContent ⟨"/", ["debt.md"]⟩ ""
  have hown : findSection? longerTitleNodes (.exactly ["Search"]) =
      some ⟨⟨.heading 2, "Search", 3⟩, 2, [⟨.paragraph, "❌ MISSING", 4⟩]⟩ := by decide +kernel
  refine ⟨debt, hparse, hnodes ▸ hown, by decide +kernel, ?_⟩
  have hfirst : Mentions "Search" ⟨.heading 2, "Advanced Search", 1⟩ := by decide +kernel
  rw [detect_append [] hnodes (fun _ h => absurd h List.not_mem_nil) hfirst rfl]
  decide +kernel

end SpecDraft.Status
