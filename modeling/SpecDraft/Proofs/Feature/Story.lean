import SpecDraft.Proofs.Feature.Excerpt
import SpecDraft.Proofs.Feature.Specification

/-!
# Stories that are read again

A specification writes a story as one sentence, whatever the text was that told it. The sentence is
cut where that text was cut (`cutInside?_trim`), since a phrase that begins with a comma and has no
other comma cannot begin in one part of a story and end in the next. So the story is read from its
own line as it was (`story_reads_back`).
-/
set_option autoImplicit false

namespace SpecDraft.UserStory

open Text

/-! ## Where a part ends -/

/-- Whether the first letter of a phrase is none of its other letters. -/
def StartsOnce (phrase : List Char) : Prop :=
  ∃ first tail, phrase = first :: tail ∧ fold first ∉ tail.map fold

theorem startsOnce_want : StartsOnce ", I want ".toList :=
  ⟨',', " I want ".toList, rfl, by decide +kernel⟩

theorem startsOnce_soThat : StartsOnce ", so that ".toList :=
  ⟨',', " so that ".toList, rfl, by decide +kernel⟩

section Cut
variable {phrase before rest s a b : List Char}

/-- A phrase that starts before another occurrence of it also ends before that one. -/
theorem StartsOnce.exists_before (h : StartsOnce phrase) (hne : before ≠ [])
    (hfound : (afterFold? phrase (before ++ (phrase ++ rest))).isSome) :
    ∃ here more, before = here ++ more ∧ SameLetters here phrase := by
  obtain ⟨after, hafter⟩ := Option.isSome_iff_exists.mp hfound
  obtain ⟨here, hsplit, hsame⟩ := afterFold?_eq_some_iff.mp hafter
  rcases List.append_eq_append_iff.mp hsplit with ⟨late, hhere, hrest⟩ | ⟨more, hbefore, -⟩
  · cases late with
    | nil => exact ⟨here, [], by simpa using hhere.symm, hsame⟩
    | cons c late =>
      -- The occurrence reaches into the other one, so it has the first letter of that one inside.
      obtain ⟨first, tail, rfl, honce⟩ := h
      obtain ⟨d, before, rfl⟩ := List.exists_cons_of_ne_nil hne
      obtain ⟨rfl, -⟩ := List.cons.inj hrest
      rw [hhere, SameLetters, List.cons_append, List.map_cons, List.map_cons] at hsame
      obtain ⟨-, htail⟩ := List.cons.inj hsame
      refine absurd ?_ honce
      rw [← htail]
      simp
  · exact ⟨here, more, hbefore, hsame⟩

theorem cutInside?_eq_some_iff {phrase : String} : cutInside? phrase s = some (a, b) ↔
    ∃ c before here, s = c :: (before ++ here) ∧ a = c :: before ∧
      FirstAt (afterFold? phrase.toList) before here b := by
  cases s with
  | nil => simp [cutInside?]
  | cons d s =>
    rw [cutInside?, cutFold?, Option.map_eq_some_iff]
    constructor
    · rintro ⟨⟨before, after⟩, hfirst, hpair⟩
      obtain ⟨here, rfl, hat⟩ := firstFrom_eq_some_iff.mp hfirst
      cases hpair
      exact ⟨d, before, here, rfl, rfl, hat⟩
    · rintro ⟨c, before, here, hs, rfl, hat⟩
      obtain ⟨rfl, rfl⟩ := List.cons.inj hs
      exact ⟨(before, b), firstFrom_eq_some_iff.mpr ⟨here, rfl, hat⟩, rfl⟩

/-- **A part of a story ends at the same phrase** when the blanks around it are left out. -/
theorem cutInside?_trim {phrase : String} (hphrase : StartsOnce phrase.toList)
    (h : cutInside? phrase s = some (a, b)) (hne : trim a ≠ []) (rest : List Char) :
    cutInside? phrase (trim a ++ (phrase.toList ++ rest)) = some (trim a, rest) := by
  obtain ⟨c, before, here, -, rfl, hat⟩ := cutInside?_eq_some_iff.mp h
  obtain ⟨lead, trail, hpart, -, -⟩ := exists_trim (c :: before)
  obtain ⟨d, tail, htrim⟩ := List.exists_cons_of_ne_nil hne
  rw [htrim] at hpart ⊢
  have hsuffix : tail ++ trail <:+ before := by
    cases lead with
    | nil =>
      obtain ⟨-, rfl⟩ := List.cons.inj hpart
      exact List.suffix_refl _
    | cons _ lead =>
      obtain ⟨-, rfl⟩ := List.cons.inj hpart
      exact ⟨lead ++ [d], by simp⟩
  refine cutInside?_eq_some_iff.mpr ⟨d, tail, phrase.toList ++ rest, rfl, rfl, ?_, ?_⟩
  · exact afterFold?_eq_some_iff.mpr ⟨phrase.toList, rfl, rfl⟩
  · intro skipped hskipped hne
    by_contra hfound
    -- An earlier occurrence stands in the part itself, where the part would have ended before.
    obtain ⟨place, more, rfl, hsame⟩ :=
      hphrase.exists_before hne (Option.isSome_iff_ne_none.mpr hfound)
    have hearlier : place ++ more ++ trail <:+ before := by
      obtain ⟨front, rfl⟩ := hskipped
      exact List.IsSuffix.trans ⟨front, by simp⟩ hsuffix
    have hnone := hat.first _ hearlier (List.append_ne_nil_of_left_ne_nil hne trail)
    rw [List.append_assoc, List.append_assoc, afterFold?_eq_some_iff.mpr ⟨place, rfl, hsame⟩]
      at hnone
    cases hnone

end Cut

/-! ## The sentence of a story -/

theorem dropPeriod_append_period {s : List Char} (h : s ≠ []) : dropPeriod (s ++ ['.']) = s := by
  have hlength : 2 ≤ (s ++ ['.']).length := by
    have hpos := List.length_pos_iff.mpr h
    rw [List.length_append, List.length_singleton]
    omega
  rw [dropPeriod, if_pos ⟨by simp, hlength⟩, List.dropLast_concat]

/-- A sentence that tells a story. -/
def sentence (role goal benefit : List Char) : List Char :=
  "As a ".toList ++ (role ++ (", I want ".toList ++ (goal ++ (", so that ".toList ++
    (benefit ++ ['.'])))))

section Sentence
variable {s role goal benefit : List Char}

theorem parts?_eq_some_iff : parts? s = some (role, goal, benefit) ↔
    ∃ first second last, afterFoldAny? ["As a ", "As an "] s = some first ∧
      cutInside? ", I want " first = some (role, second) ∧
      cutInside? ", so that " second = some (goal, last) ∧ last ≠ [] ∧
      dropPeriod last = benefit := by
  simp only [parts?, Option.bind_eq_bind, Option.bind_eq_some_iff, Prod.exists]
  constructor
  · rintro ⟨first, hfirst, role', second, hrole, goal', last, hgoal, h⟩
    split at h
    · cases h
    · rename_i hlast
      cases h
      exact ⟨first, second, last, hfirst, hrole, hgoal, by simpa using hlast, rfl⟩
  · rintro ⟨first, second, last, hfirst, hrole, hgoal, hlast, rfl⟩
    exact ⟨first, hfirst, role, second, hrole, goal, last, hgoal, by simp [hlast]⟩

/-- **A sentence is cut into the parts** that it was made of, where they have been cut out of a
text. -/
theorem parts?_sentence (h : parts? s = some (role, goal, benefit)) (hrole : trim role ≠ [])
    (hgoal : trim goal ≠ []) (hbenefit : trim benefit ≠ []) :
    parts? (sentence (trim role) (trim goal) (trim benefit)) =
      some (trim role, trim goal, trim benefit) := by
  obtain ⟨first, second, last, -, hfirst, hsecond, -, -⟩ := parts?_eq_some_iff.mp h
  refine parts?_eq_some_iff.mpr ⟨_, _, trim benefit ++ ['.'], rfl,
    cutInside?_trim startsOnce_want hfirst hrole _,
    cutInside?_trim startsOnce_soThat hsecond hgoal _, by simp,
    dropPeriod_append_period hbenefit⟩

/-- What a text tells when its parts are cut at its start. -/
theorem ofText?_of_parts? {text : String} (h : parts? text.toList = some (role, goal, benefit)) :
    ofText? text = some
      ⟨.ofList (trim role), .ofList (trim goal), .ofList (trim benefit), strip text⟩ := by
  have hfirst : firstFrom parts? text.toList = some ([], role, goal, benefit) :=
    firstFrom_eq_some_iff.mpr ⟨text.toList, rfl, h, fun skipped hskipped hne =>
      absurd (List.suffix_nil.mp hskipped) hne⟩
  rw [ofText?, hfirst]
  rfl

end Sentence

/-- The parts of a story are cut somewhere in its text, and trimmed. -/
theorem exists_parts_of_ofText? {text : String} {story : UserStory}
    (h : ofText? text = some story) :
    ∃ here role goal benefit, parts? here = some (role, goal, benefit) ∧
      story.role = .ofList (trim role) ∧ story.goal = .ofList (trim goal) ∧
      story.benefit = .ofList (trim benefit) := by
  obtain ⟨⟨before, role, goal, benefit⟩, hfirst, rfl⟩ := Option.map_eq_some_iff.mp h
  obtain ⟨here, -, hparts⟩ := firstFrom_some hfirst
  exact ⟨here, role, goal, benefit, hparts, rfl, rfl, rfl⟩

/-- A story of some nodes is told by the text of one of them. -/
theorem exists_text_of_mem_ofNodes {nodes : List Markdown.Node} {story : UserStory}
    (h : story ∈ ofNodes nodes) : ∃ node ∈ nodes, ofText? node.text = some story := by
  obtain ⟨node, hnode, hstory⟩ := List.mem_filterMap.mp h
  unfold ofNode? at hstory
  split at hstory
  · exact ⟨node, hnode, hstory⟩
  · cases hstory

/-- Whether every part of a story says something. -/
structure Filled (story : UserStory) : Prop where
  role : story.role ≠ ""
  goal : story.goal ≠ ""
  benefit : story.benefit ≠ ""

end SpecDraft.UserStory

namespace SpecDraft.Feature

open Text Markdown

/-! ## The line of a story -/

section Story
variable {text content : String} {story : UserStory} {nodes : List Node}

theorem toList_storyText (story : UserStory) : (storyText story).toList =
    UserStory.sentence story.role.toList story.goal.toList story.benefit.toList := by
  have hperiod : ".".toList = ['.'] := rfl
  simp only [storyText, String.toList_append, List.append_assoc, hperiod]
  rfl

/-- **The sentence of a story tells the story.** -/
theorem ofText?_storyText (h : UserStory.ofText? text = some story) (hfilled : story.Filled)
    (hstripped : strip (storyText story) = storyText story) :
    UserStory.ofText? (storyText story) = some { story with raw := storyText story } := by
  obtain ⟨here, role, goal, benefit, hparts, hrole, hgoal, hbenefit⟩ :=
    UserStory.exists_parts_of_ofText? h
  obtain ⟨hrole', hgoal', hbenefit'⟩ := hfilled
  rw [hrole] at hrole'
  rw [hgoal] at hgoal'
  rw [hbenefit] at hbenefit'
  have hsentence := UserStory.parts?_sentence hparts (by simpa using hrole') (by simpa using hgoal')
    (by simpa using hbenefit')
  have htext : (storyText story).toList =
      UserStory.sentence (trim role) (trim goal) (trim benefit) := by
    rw [toList_storyText, hrole, hgoal, hbenefit]
    simp only [String.toList_ofList]
  rw [← htext] at hsentence
  rw [UserStory.ofText?_of_parts? hsentence, hstripped, trim_trim, trim_trim, trim_trim, ← hrole,
    ← hgoal, ← hbenefit]

/-- The parts of a story that was read from a content are single lines. -/
theorem isLine_of_mem_ofNodes (hparse : parse content = .ok nodes)
    (hstory : story ∈ UserStory.ofNodes nodes) (hfilled : story.Filled) :
    IsLine story.role ∧ IsLine story.goal ∧ IsLine story.benefit := by
  have hstripped {part : String} {cut : List Char} (hcut : part = .ofList (trim cut)) :
      strip part = part := by
    rw [hcut, strip, String.toList_ofList, trim_trim]
  obtain ⟨node, -, htold⟩ := UserStory.exists_text_of_mem_ofNodes hstory
  obtain ⟨_, _, _, _, -, hrole, hgoal, hbenefit⟩ := UserStory.exists_parts_of_ofText? htold
  obtain ⟨hrole', hgoal', hbenefit'⟩ := quoted_of_story hstory
  exact ⟨⟨hfilled.role, hrole'.single hparse, hstripped hrole⟩,
    ⟨hfilled.goal, hgoal'.single hparse, hstripped hgoal⟩,
    ⟨hfilled.benefit, hbenefit'.single hparse, hstripped hbenefit⟩⟩

/-- An item that stands alone is the only node of its document. -/
theorem parse_itemLine {s : String} (h : IsLine s) :
    parse (String.ofList (Template.itemLine s)) = .ok [⟨.item false 0, s, 1⟩] := by
  obtain ⟨hsingle, hreturn, hfence⟩ := (makes_item h).plain _ List.mem_cons_self
  have hlines : contentLines (String.ofList (Template.itemLine s)) = [Template.itemLine s] := by
    rw [contentLines, String.toList_ofList, lines, split_of_not_mem hsingle, List.map_singleton,
      dropRight_of_getLast? hreturn]
  have hopen : after? fenceMark (Template.itemLine s) = none := by
    rw [after?_eq_none_iff, ← isFence_iff, hfence]
    exact Bool.false_ne_true
  have hnode : lineNode? 1 (Template.itemLine s) = some ⟨.item false 0, s, 1⟩ := by
    rw [lineNode?, Template.itemLine, Block.classify_item h.trim h.toList_ne_nil]
    dsimp only [Option.map_some]
    rw [String.ofList_toList]
  rw [parse, hlines, nodesFrom, hopen]
  dsimp only
  rw [hnode]
  rfl

/-- A specification has the line of every story of its feature. -/
theorem mem_lines_specificationText {feature : Feature} (h : story ∈ feature.stories)
    (hsingle : '\n' ∉ story.line) (route : String) :
    story.line ∈ lines (feature.specificationText route).toList := by
  have hwritten : story.line ∈ feature.specificationLines route := by
    have hline : story.line ∈ linesOr (feature.stories.map UserStory.line)
        "No user stories documented." := by
      have hmem := List.mem_map_of_mem (f := UserStory.line) h
      rwa [linesOr, if_neg (by simpa using List.ne_nil_of_mem h)]
    simp only [specificationLines, List.mem_append]
    exact .inl (.inl (.inl (.inl (.inl (.inr hline)))))
  rw [specificationText, String.toList_ofList, lines_writtenLines_flatMap]
  refine List.mem_append_left _ (List.mem_flatMap.mpr ⟨_, hwritten, ?_⟩)
  rw [lines, split_of_not_mem hsingle]
  exact List.mem_singleton_self _

/-- **A story survives its specification.** A story with three parts that was read from a document
has a line in the specification of every feature that has the story. That line alone is a document
with one item, and the item tells one story, which has the role, the goal and the benefit of the
first. -/
theorem story_reads_back (content : String) (nodes : List Node) (story : UserStory)
    (hparse : parse content = .ok nodes) (hstory : story ∈ UserStory.ofNodes nodes)
    (hfilled : story.Filled) :
    (∀ (feature : Feature) (route : String) (options : Template.Options) (text : String),
      story ∈ feature.stories → options.trimBlocks = true → 3 ≤ options.maxDepth →
      Template.render options Template.Bundled.featureSpec.name (feature.templateData route) =
        .ok text →
      story.line ∈ lines text.toList) ∧
    ∃ item : Node, parse (String.ofList story.line) = .ok [item] ∧ item.isItem = true ∧
      UserStory.ofNodes [item] = [{ story with raw := item.text }] := by
  have hline := isLine_storyText (isLine_of_mem_ofNodes hparse hstory hfilled)
  have hitem := parse_itemLine hline
  rw [← line_eq_itemLine] at hitem
  constructor
  · intro feature route options text hmem htrim hdepth hrender
    rw [render_featureSpec feature route htrim hdepth] at hrender
    have hsingle := ((makes_item hline).plain _ List.mem_cons_self).1
    rw [← line_eq_itemLine] at hsingle
    split at hrender
    · cases hrender
      exact mem_lines_specificationText hmem hsingle route
    · cases hrender
  · obtain ⟨node, -, htold⟩ := UserStory.exists_text_of_mem_ofNodes hstory
    have htext := ofText?_storyText htold hfilled hline.stripped
    have htold' : UserStory.ofNode? ⟨.item false 0, storyText story, 1⟩ =
        some { story with raw := storyText story } := htext
    refine ⟨_, hitem, rfl, ?_⟩
    rw [UserStory.ofNodes, List.filterMap_cons, htold']
    rfl

end Story

/-- A story whose goal and benefit start with the words that come before them. -/
def tangledContent : String :=
  "- So AS AN  admin , I WANT , I want it, so that , so that I rest.. "

/-- What that story says. -/
def tangledStory : UserStory :=
  ⟨"admin", ", I want it", ", so that I rest.",
    "So AS AN  admin , I WANT , I want it, so that , so that I rest.."⟩

theorem story_reads_back_tangled :
    tangledStory.line = "- As a admin, I want , I want it, so that , so that I rest..".toList ∧
    (∃ text, Template.render trimming Template.Bundled.featureSpec.name
        (Feature.templateData { searchFeature with stories := [tangledStory] } "greenfield") =
          .ok text ∧
      tangledStory.line ∈ lines text.toList) ∧
    ∃ item : Node, parse (String.ofList tangledStory.line) = .ok [item] ∧ item.isItem = true ∧
      UserStory.ofNodes [item] = [{ tangledStory with raw := item.text }] := by
  have hparse : parse tangledContent = .ok [⟨.item false 0, tangledStory.raw, 1⟩] :=
    parse_of_toOption (by decide +kernel)
  have hstory : tangledStory ∈ UserStory.ofNodes [⟨.item false 0, tangledStory.raw, 1⟩] := by
    decide +kernel
  have hsize : (specificationText { searchFeature with stories := [tangledStory] }
      "greenfield").length ≤ trimming.maxOutput := by
    rw [specificationText, String.length_ofList]
    decide +kernel
  have htrim : trimming.trimBlocks = true := rfl
  have hrender := render_featureSpec { searchFeature with stories := [tangledStory] } "greenfield"
    htrim (by decide)
  rw [if_pos hsize] at hrender
  obtain ⟨hlines, hitem⟩ := story_reads_back tangledContent _ tangledStory hparse hstory
    ⟨by decide, by decide, by decide⟩
  exact ⟨by decide +kernel, ⟨_, hrender, hlines _ _ _ _ List.mem_cons_self htrim (by decide)
    hrender⟩, hitem⟩

end SpecDraft.Feature
