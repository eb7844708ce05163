import SpecDraft.Artifact
import SpecDraft.Proofs.Template.Rendering
import SpecDraft.Proofs.Template.Writing

/-!
# Rendered specifications

What the template for the specification of a feature is read as (`parse_featureSpec`), and the lines
that it makes of a feature (`render_featureSpec`).
-/
set_option autoImplicit false

namespace SpecDraft.Template

open Text

/-! ## The template -/

/-- A text as a token. -/
def said (s : String) : Token := .text s.toList

/-- The lines of a loop that lists the items of a name. -/
def listedLines (name : String) : List (List Token) :=
  [[.each " " name], [said "- ", .ref "this"], [.endEach]]

/-- The lines of a choice between some lines and a replacement text. -/
def listedOrLines (flag : String) (lines : List (List Token)) (replacement : String) :
    List (List Token) :=
  [.choice " " flag] :: (lines ++ [[.otherwise], [said replacement], [.endChoice]])

/-- The lines for the technical requirements of one kind. -/
def kindLines (title name : String) : List (List Token) :=
  [[.choice " " ("has_" ++ name)], [said ("### " ++ title)], []] ++ listedLines name ++
    [[], [.endChoice]]

/-- The kinds of technical requirements: the title and the name of each. -/
def kinds : List (String × String) :=
  [("Endpoints", "endpoints"), ("Data Models", "data_models"), ("Components", "components"),
    ("Technical Dependencies", "technical_dependencies"), ("Files", "files")]

/-- The lines of the template, as tokens. -/
def featureSpecLines : List (List Token) :=
  [[said "# Feature Specification: ", .ref "feature_name"], [],
    [said "**Feature ID:** ", .ref "feature_id"], [said "**Status:** ", .ref "status"], [],
    [said "## Description"], [], [.ref "description"], [], [said "## User Stories"], []] ++
  listedOrLines "has_user_stories"
    [[.each " " "user_stories"],
      [said "- As a ", .ref "role", said ", I want ", .ref "goal", said ", so that ",
        .ref "benefit", said "."],
      [.endEach]]
    "No user stories documented." ++
  [[], [said "## Acceptance Criteria"], []] ++
  listedOrLines "has_acceptance_criteria"
    [[.each " " "acceptance_criteria"],
      [said "- [", .choice " " "checked", said "x", .otherwise, said " ", .endChoice, said "] ",
        .ref "description"],
      [.endEach]]
    "No acceptance criteria documented." ++
  [[], [said "## Dependencies"], []] ++
  listedOrLines "has_dependencies" (listedLines "dependencies") "None." ++
  [[.choice " " "has_technical_requirements"], [], [said "## Technical Requirements"], []] ++
  kinds.flatMap (fun (title, name) => kindLines title name) ++ [[.endChoice]]

/-- A loop that lists the items of a name. -/
def listedNode (name : String) : Node := .loop name [.text "- ", .ref "this", .text "\n"]

/-- The technical requirements of one kind. -/
def kindNode (title name : String) : Node :=
  .choice ("has_" ++ name)
    [.text ("### " ++ title ++ "\n" ++ "\n"), listedNode name, .text "\n"] none

/-- The tree of the template. -/
def featureSpecTree : List Node :=
  [.text "# Feature Specification: ", .ref "feature_name",
    .text ("\n" ++ "\n" ++ "**Feature ID:** "), .ref "feature_id",
    .text ("\n" ++ "**Status:** "), .ref "status",
    .text ("\n" ++ "\n" ++ "## Description" ++ "\n" ++ "\n"), .ref "description",
    .text ("\n" ++ "\n" ++ "## User Stories" ++ "\n" ++ "\n"),
    .choice "has_user_stories"
      [.loop "user_stories" [.text "- As a ", .ref "role", .text ", I want ", .ref "goal",
        .text ", so that ", .ref "benefit", .text ("." ++ "\n")]]
      (some [.text ("No user stories documented." ++ "\n")]),
    .text ("\n" ++ "## Acceptance Criteria" ++ "\n" ++ "\n"),
    .choice "has_acceptance_criteria"
      [.loop "acceptance_criteria" [.text "- [", .choice "checked" [.text "x"] (some [.text " "]),
        .text "] ", .ref "description", .text "\n"]]
      (some [.text ("No acceptance criteria documented." ++ "\n")]),
    .text ("\n" ++ "## Dependencies" ++ "\n" ++ "\n"),
    .choice "has_dependencies" [listedNode "dependencies"] (some [.text ("None." ++ "\n")]),
    .choice "has_technical_requirements"
      (.text ("\n" ++ "## Technical Requirements" ++ "\n" ++ "\n") ::
        kinds.map fun (title, name) => kindNode title name)
      none]

theorem lines_featureSpec :
    Bundled.featureSpec.lines.map String.toList = featureSpecLines.map spelling := by
  simp only [Bundled.lines, Bundled.listedOr, Bundled.listed, Bundled.requirements,
    featureSpecLines, listedOrLines, listedLines, kindLines, kinds, said, List.map_cons,
    List.map_nil, List.flatMap_cons, List.flatMap_nil, List.cons_append, List.nil_append,
    List.append_nil, String.reduceAppend]
  simp only [spelling_cons, show spelling [] = [] from rfl, Token.source, String.toList_append,
    String.toList_ofList, String.toList_empty, List.append_assoc, List.append_nil,
    String.reduceAppend]

theorem toList_text {template : Bundled} {lines : List (List Token)}
    (h : template.lines.map String.toList = lines.map spelling) :
    template.text.toList = linesText lines := by
  have hlines := congrArg (List.flatMap (· ++ ['\n'])) h
  rw [List.flatMap_map, List.flatMap_map] at hlines
  rw [Bundled.text, toList_join_empty, List.flatMap_map]
  simp only [String.toList_append]
  exact hlines

theorem toList_newline : "\n".toList = ['\n'] := rfl

theorem trimmed_featureSpecLines :
    featureSpecLines.flatMap trimmedLine = spelling (Node.tokensOf featureSpecTree) := by
  simp only [featureSpecLines, listedOrLines, listedLines, kindLines, kinds, said,
    featureSpecTree, kindNode, listedNode, Node.tokensOf, Node.tokens, Node.tokensOfElse,
    List.map_cons, List.map_nil, List.flatMap_cons, List.flatMap_nil,
    List.append_assoc, List.cons_append, List.nil_append, List.append_nil, trimmedLine, isAlone,
    Token.isBlockTag, if_true, Bool.false_eq_true, if_false, spelling_cons,
    show spelling [] = [] from rfl, Token.source, String.toList_append, String.toList_ofList,
    toList_newline]

theorem plain_featureSpecLines : featureSpecLines.all isPlainLine = true := by decide +kernel

theorem plain_featureSpecTree : isPlain (Node.tokensOf featureSpecTree) = true := by
  decide +kernel

/-- **A bundled template is read as a tree** that is written as its lines after they are trimmed. -/
theorem parse_of_tree {limit : Int} {template : Bundled} {lines : List (List Token)}
    {tree : List Node} (hlines : template.lines.map String.toList = lines.map spelling)
    (hplain : lines.all isPlainLine = true)
    (htrimmed : lines.flatMap trimmedLine = spelling (Node.tokensOf tree))
    (htree : isPlain (Node.tokensOf tree) = true) (hdepth : (Node.depthOf tree : Int) ≤ limit) :
    parse limit true template.text = .ok tree := by
  have htokens := tokens_of_lexical (lexical_of_plain htree)
    (htrimmed.symm.trans (trimBlockLines_lines (toList_text hlines) hplain).symm)
  rw [parse, if_pos rfl, htokens]
  exact treeOf_tokens _ hdepth

/-- **The template for specifications** is read as its tree, as long as three blocks may be open at
a time. -/
theorem parse_featureSpec {limit : Int} (h : 3 ≤ limit) :
    parse limit true Bundled.featureSpec.text = .ok featureSpecTree :=
  parse_of_tree lines_featureSpec plain_featureSpecLines trimmed_featureSpecLines
    plain_featureSpecTree h

/-- Every bundled template is found under its name. -/
theorem load_name (template : Bundled) : load template.name = .ok template.text := by
  have hname : Disk.holdsNull (Bundled.fileOf template.name) = false := by
    cases template <;> decide +kernel
  have hfound : Bundled.ofName? template.name = some template := by
    cases template <;> decide +kernel
  rw [load, hname, hfound]
  rfl

/-! ## Writing line by line -/

/-- The line of an item of a list. -/
def itemLine (text : String) : List Char := '-' :: ' ' :: text.toList

namespace Node

/-- The characters that nodes make of a dictionary. -/
def charsOf (values : Members) (nodes : List Node) : List Char :=
  (piecesOf values nodes).flatMap String.toList

section Chars
variable {values : Members} {name : String}

theorem charsOf_nil (values : Members) : charsOf values [] = [] := rfl

theorem charsOf_text (values : Members) (chars : String) (nodes : List Node) :
    charsOf values (.text chars :: nodes) = chars.toList ++ charsOf values nodes := rfl

theorem charsOf_ref (text : String) (h : values.get? name = some (.str text)) (nodes : List Node) :
    charsOf values (.ref name :: nodes) = text.toList ++ charsOf values nodes := by
  rw [charsOf, piecesOf, pieces, h]
  rfl

theorem charsOf_choice (flag : Bool) (h : values.get? name = some (.bool flag)) (yes : List Node)
    (no : Option (List Node)) (nodes : List Node) :
    charsOf values (.choice name yes no :: nodes) =
      (if flag then charsOf values yes else charsOf values (no.getD [])) ++
        charsOf values nodes := by
  rw [charsOf, piecesOf, pieces, h, List.flatMap_append]
  cases flag <;> cases no <;> rfl

/-- A loop writes what its body makes of each of its items. -/
theorem charsOf_items {α : Type} {body : List Node} (xs : List α) (item : α → Json)
    (chars : α → List Char) (h : values.get? name = some (.arr (xs.map item)))
    (hbody : ∀ x index, charsOf (entered values (item x) index) body = chars x)
    (nodes : List Node) :
    charsOf values (.loop name body :: nodes) = xs.flatMap chars ++ charsOf values nodes := by
  have hchars : ∀ pair ∈ xs.zipIdx,
      (piecesOf (entered values (item pair.1) pair.2) body).flatMap String.toList =
        chars pair.1 := fun pair _ => hbody pair.1 pair.2
  rw [charsOf, piecesOf, pieces, h, List.flatMap_append, listItems, List.zipIdx_map,
    List.flatMap_map, List.flatMap_assoc]
  refine congrArg (· ++ _) ((List.flatMap_congr hchars).trans ?_)
  have hfirst := congrArg (List.flatMap chars) (List.zipIdx_map_fst 0 xs)
  rw [List.flatMap_map] at hfirst
  exact hfirst

/-- A loop writes a line for each of its items. -/
theorem charsOf_loop {α : Type} {body : List Node} (xs : List α) (item : α → Json)
    (line : α → List Char) (h : values.get? name = some (.arr (xs.map item)))
    (hbody : ∀ x index, charsOf (entered values (item x) index) body = line x ++ ['\n'])
    (nodes : List Node) :
    charsOf values (.loop name body :: nodes) =
      writtenLines (xs.map line) ++ charsOf values nodes := by
  rw [charsOf_items xs item _ h hbody, writtenLines, List.flatMap_map]

/-- What a name is in the dictionary of a loop item. -/
theorem get?_entered {item : Json} (h : item.WellFormed) (values : Members) (index : Nat)
    (name : String) :
    (entered values item index).get? name =
      if name = "index" then some (.nat index)
      else ((itemFields item).get? name).or (values.get? name) := by
  rw [entered, Members.get?_put, Members.get?_merge values (itemFields_wellFormed h).nodup]

/-- The dictionary of a loop item that is an object has the fields of the object. -/
theorem get?_entered_obj {fields : Members} {value : Json} (h : (Json.obj fields).WellFormed)
    (hget : fields.get? name = some value) (hname : name ≠ "index") (index : Nat) :
    (entered values (.obj fields) index).get? name = some value := by
  rw [get?_entered h, if_neg hname, itemFields, hget]
  rfl

/-- A loop item that is an object is written by its fields. -/
theorem charsOf_field {fields : Members} (text : String) (h : (Json.obj fields).WellFormed)
    (hget : fields.get? name = some (.str text)) (hname : name ≠ "index") (index : Nat)
    (nodes : List Node) :
    charsOf (entered values (.obj fields) index) (.ref name :: nodes) =
      text.toList ++ charsOf (entered values (.obj fields) index) nodes :=
  charsOf_ref text (get?_entered_obj h hget hname index) nodes

/-- The items of a list of texts, each on a line of its own. -/
theorem charsOf_listedNode (texts : List String) (h : values.get? name = some (.strs texts))
    (nodes : List Node) :
    charsOf values (listedNode name :: nodes) =
      writtenLines (texts.map itemLine) ++ charsOf values nodes := by
  rw [listedNode]
  refine charsOf_loop texts .str itemLine h (fun text index => ?_) nodes
  have hthis : (entered values (.str text) index).get? "this" = some (.str text) := by
    rw [get?_entered (Json.wellFormed_str text)]
    rfl
  rw [charsOf_text, charsOf_ref text hthis, charsOf_text]
  rfl

end Chars
end Node

/-- **A template is rendered line by line** when its tree makes lines of the data, within the
limit. -/
theorem render_of_lines {options : Options} {template : Bundled} {data : Members}
    {tree : List Node} {lines : List (List Char)}
    (hparse : parse options.maxDepth options.trimBlocks template.text = .ok tree)
    (hdata : data.WellFormed) (hlines : Node.charsOf data tree = writtenLines lines)
    (hne : lines ≠ []) :
    render options template.name data =
      if (String.ofList (writtenLines lines)).length ≤ options.maxOutput then
        .ok (String.ofList (writtenLines lines))
      else .error ((Failure.renderingTooLarge options.maxOutput).inTemplate template.name) := by
  rw [Node.charsOf] at hlines
  have hpieces : Node.piecesOf data tree ≠ [] := by
    intro hnil
    rw [hnil] at hlines
    exact hne (List.eq_nil_iff_forall_not_mem.mpr (by simpa [writtenLines] using hlines.symm))
  have hjoin : String.join (Node.piecesOf data tree) = String.ofList (writtenLines lines) := by
    rw [← String.toList_inj, String.toList_join, hlines, String.toList_ofList]
  have hsize : ((Node.piecesOf data tree).map String.length).sum =
      (String.ofList (writtenLines lines)).length := by
    rw [String.length_ofList, ← hlines, List.length_flatMap]
    rfl
  have hpopulate : populate options template.text data =
      limited options.maxOutput (Node.piecesOf data tree) := by
    rw [populate, hparse]
    change (do return (← renderNodes options.maxOutput [data] tree .empty).text) = _
    rw [renderNodes_eq (agrees_singleton _) hdata, emitAll_empty]
  rw [render, load_name]
  change renderNamed _ _ _ _ = _
  rw [renderNamed, hpopulate, limited, hjoin, hsize]
  simp only [hpieces, false_or]
  split <;> rfl

end SpecDraft.Template

namespace SpecDraft

open Text Template

/-- What the template sees of a story. -/
def UserStory.fields (story : UserStory) : Members :=
  [("role", .str story.role), ("goal", .str story.goal), ("benefit", .str story.benefit)]

/-- What the template sees of a criterion. -/
def Criterion.fields (criterion : Criterion) : Members :=
  [("description", .str criterion.description), ("checked", .bool criterion.checked)]

/-- The line of a story in a specification. -/
def UserStory.line (story : UserStory) : List Char :=
  ("- As a " ++ story.role ++ ", I want " ++ story.goal ++ ", so that " ++ story.benefit ++
    ".").toList

/-- The line of a criterion in a specification. -/
def Criterion.line (criterion : Criterion) : List Char :=
  ("- [" ++ (if criterion.checked then "x" else " ") ++ "] " ++ criterion.description).toList

/-- The technical requirements of a feature by kind, with the title of each kind. -/
def Requirements.kinds (r : Requirements) : List (String × List String) :=
  [("Endpoints", r.endpoints), ("Data Models", r.dataModels), ("Components", r.components),
    ("Technical Dependencies", r.dependencies), ("Files", r.files)]

/-- The lines for the technical requirements of one kind, if there are any. -/
def Requirements.kindLines (title : String) (items : List String) : List (List Char) :=
  if items.isEmpty then []
  else ("### " ++ title).toList :: [] :: (items.map itemLine ++ [[]])

/-- The lines for technical requirements, if they are shown. -/
def Requirements.lines : Option Requirements → List (List Char)
  | none => []
  | some r => [] :: "## Technical Requirements".toList :: [] ::
      r.kinds.flatMap fun (title, items) => kindLines title items

/-- Some lines, or a replacement when there are none. -/
def linesOr (lines : List (List Char)) (replacement : String) : List (List Char) :=
  if lines.isEmpty then [replacement.toList] else lines

/-- The lines of the specification of a feature. -/
def Feature.specificationLines (feature : Feature) (route : String) : List (List Char) :=
  [("# Feature Specification: " ++ feature.name).toList, [],
    ("**Feature ID:** " ++ feature.id).toList,
    ("**Status:** " ++ feature.status.text).toList, [], "## Description".toList, [],
    feature.description.toList, [], "## User Stories".toList, []] ++
  linesOr (feature.stories.map UserStory.line) "No user stories documented." ++
  [[], "## Acceptance Criteria".toList, []] ++
  linesOr (feature.criteria.map Criterion.line) "No acceptance criteria documented." ++
  [[], "## Dependencies".toList, []] ++
  linesOr (feature.dependencies.map itemLine) "None." ++
  Requirements.lines (feature.shownRequirements route)

namespace Feature

variable (feature : Feature) (route : String)

theorem templateData_wellFormed : (feature.templateData route).WellFormed := by
  rw [← Members.wellFormed_obj]
  cases hshown : feature.shownRequirements route <;>
    simp [templateData, hshown, Requirements.templateData, listWithFlag, Json.WellFormed,
      Json.MembersWellFormed, Json.itemsWellFormed_iff, Json.strs, FieldValue.toJson]

section
variable {values : Members}

theorem writtenLines_linesOr {α : Type} (xs : List α) (line : α → List Char)
    (replacement : String) :
    writtenLines (linesOr (xs.map line) replacement) =
      if !xs.isEmpty then writtenLines (xs.map line) else replacement.toList ++ ['\n'] := by
  cases xs with
  | nil => exact List.append_nil _
  | cons x xs => rfl

theorem charsOf_kindNode {name : String} (title : String) (items : List String)
    (hflag : values.get? ("has_" ++ name) = some (.bool (!items.isEmpty)))
    (hitems : values.get? name = some (.strs items)) (nodes : List Node) :
    Node.charsOf values (kindNode title name :: nodes) =
      writtenLines (Requirements.kindLines title items) ++ Node.charsOf values nodes := by
  rw [kindNode, Node.charsOf_choice _ hflag, Requirements.kindLines]
  refine congrArg (· ++ _) ?_
  cases items.isEmpty
  · rw [Node.charsOf_text, Node.charsOf_listedNode items hitems, Node.charsOf_text]
    simp [writtenLines, toList_newline, Node.charsOf, Node.piecesOf]
  · rfl

end

theorem charsOf_stories :
    Node.charsOf (feature.templateData route)
      [.loop "user_stories" [.text "- As a ", .ref "role", .text ", I want ", .ref "goal",
        .text ", so that ", .ref "benefit", .text ("." ++ "\n")]] =
      writtenLines (feature.stories.map UserStory.line) := by
  have hstories : (feature.templateData route).get? "user_stories" =
      some (.arr (feature.stories.map fun story => .obj story.fields)) := rfl
  refine (Node.charsOf_loop feature.stories _ UserStory.line hstories (fun story index => ?_)
    []).trans (List.append_nil _)
  have hfields : (Json.obj story.fields).WellFormed := by
    simp [UserStory.fields, Json.WellFormed, Json.MembersWellFormed]
  rw [Node.charsOf_text, Node.charsOf_field story.role hfields rfl (by decide), Node.charsOf_text,
    Node.charsOf_field story.goal hfields rfl (by decide), Node.charsOf_text,
    Node.charsOf_field story.benefit hfields rfl (by decide), Node.charsOf_text]
  simp only [UserStory.line, Node.charsOf_nil, String.toList_append, toList_newline,
    List.append_assoc, List.append_nil]

theorem charsOf_criteria :
    Node.charsOf (feature.templateData route)
      [.loop "acceptance_criteria" [.text "- [", .choice "checked" [.text "x"] (some [.text " "]),
        .text "] ", .ref "description", .text "\n"]] =
      writtenLines (feature.criteria.map Criterion.line) := by
  have hcriteria : (feature.templateData route).get? "acceptance_criteria" =
      some (.arr (feature.criteria.map fun criterion => .obj criterion.fields)) := rfl
  refine (Node.charsOf_loop feature.criteria _ Criterion.line hcriteria (fun criterion index => ?_)
    []).trans (List.append_nil _)
  have hfields : (Json.obj criterion.fields).WellFormed := by
    simp [Criterion.fields, Json.WellFormed, Json.MembersWellFormed]
  rw [Node.charsOf_text, Node.charsOf_choice criterion.checked
      (Node.get?_entered_obj hfields rfl (by decide) index), Node.charsOf_text, Option.getD_some,
    Node.charsOf_text, Node.charsOf_text,
    Node.charsOf_field criterion.description hfields rfl (by decide), Node.charsOf_text]
  rw [Criterion.line]
  cases criterion.checked <;>
    simp only [Node.charsOf_nil, String.toList_append, toList_newline, List.append_assoc,
      List.append_nil, Bool.false_eq_true, if_true, if_false]

theorem charsOf_requirements :
    Node.charsOf (feature.templateData route)
      [.choice "has_technical_requirements"
        (.text ("\n" ++ "## Technical Requirements" ++ "\n" ++ "\n") ::
          kinds.map fun (title, name) => kindNode title name) none] =
      writtenLines (Requirements.lines (feature.shownRequirements route)) := by
  rw [Node.charsOf_choice (feature.shownRequirements route).isSome rfl]
  cases hshown : feature.shownRequirements route with
  | none => rfl
  | some r =>
    simp only [templateData, hshown, kinds, List.map_cons, List.map_nil]
    rw [Option.isSome_some, if_pos rfl, Node.charsOf_text,
      charsOf_kindNode "Endpoints" r.endpoints rfl rfl,
      charsOf_kindNode "Data Models" r.dataModels rfl rfl,
      charsOf_kindNode "Components" r.components rfl rfl,
      charsOf_kindNode "Technical Dependencies" r.dependencies rfl rfl,
      charsOf_kindNode "Files" r.files rfl rfl, Requirements.lines, Requirements.kinds]
    simp [writtenLines, Node.charsOf, Node.piecesOf]

/-- **The template makes the lines of a specification of a feature.** -/
theorem charsOf_featureSpec : Node.charsOf (feature.templateData route) featureSpecTree =
    writtenLines (feature.specificationLines route) := by
  rw [featureSpecTree, Node.charsOf_text, Node.charsOf_ref feature.name rfl,
    Node.charsOf_text, Node.charsOf_ref feature.id rfl, Node.charsOf_text,
    Node.charsOf_ref feature.status.text rfl, Node.charsOf_text,
    Node.charsOf_ref feature.description rfl, Node.charsOf_text,
    Node.charsOf_choice (!feature.stories.isEmpty) rfl, charsOf_stories,
    Node.charsOf_text, Node.charsOf_choice (!feature.criteria.isEmpty) rfl,
    charsOf_criteria, Node.charsOf_text,
    Node.charsOf_choice (!feature.dependencies.isEmpty) rfl, charsOf_requirements,
    Node.charsOf_listedNode feature.dependencies rfl, Option.getD_some, Node.charsOf_text,
    Node.charsOf_nil, Option.getD_some, Node.charsOf_text, Node.charsOf_nil, Option.getD_some,
    Node.charsOf_text, Node.charsOf_nil]
  simp only [specificationLines, writtenLines_append, writtenLines_cons, writtenLines_linesOr,
    String.toList_append, toList_newline, List.append_assoc, List.cons_append, List.nil_append,
    List.append_nil]

/-- The text of the specification of a feature. -/
def specificationText : String := String.ofList (writtenLines (feature.specificationLines route))

/-- **A specification is rendered line by line**, within the limit. -/
theorem render_featureSpec {options : Options} (htrim : options.trimBlocks = true)
    (hdepth : 3 ≤ options.maxDepth) :
    render options Bundled.featureSpec.name (feature.templateData route) =
      if (feature.specificationText route).length ≤ options.maxOutput then
        .ok (feature.specificationText route)
      else .error ((Failure.renderingTooLarge options.maxOutput).inTemplate
        Bundled.featureSpec.name) :=
  render_of_lines (htrim ▸ parse_featureSpec hdepth) (feature.templateData_wellFormed route)
    (charsOf_featureSpec feature route) (List.cons_ne_nil _ _)

end Feature
end SpecDraft
