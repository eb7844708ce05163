import Mathlib.Algebra.Group.Nat.Even
import SpecDraft.Markdown.Parser
import SpecDraft.Proofs.Action
import SpecDraft.Proofs.Text.Cutting

/-!
# The lines of a document

Reading a document loses no line and takes none twice (`parse_covers`). A document that is read is
a sequence of segments: lines outside of code blocks, and code blocks with both of their fences
(`nodesFrom_reading`). Each segment makes at most one node, under the number of its first line, and
everything else is read off the segments, one after the other.
-/
set_option autoImplicit false

namespace SpecDraft.Markdown

open Text

/-! ## Lines and fences -/

/-- Whether a line is a fence: it starts with three backticks. -/
def isFence (line : List Char) : Bool := fenceMark.isPrefixOf line

/-- Whether a line stands outside of code blocks: it is no fence, and the fences before it come in
pairs. -/
def Outside (before : List (List Char)) (line : List Char) : Prop :=
  isFence line = false ∧ Even (before.countP isFence)

/-- The numbers of the fences among lines that are numbered from the given number on. -/
def fenceNumbers (first : Nat) (lines : List (List Char)) : List Nat :=
  ((lines.zipIdx first).filter (isFence ·.1)).map Prod.snd

/-- Consecutive pairs. -/
def pairs : List Nat → List (Nat × Nat)
  | a :: b :: rest => (a, b) :: pairs rest
  | _ => []

/-- The language that a fence names after its backticks, if it names one. -/
def languageOf (fence : List Char) : Option String :=
  let language := trim (fence.drop fenceMark.length)
  if language.isEmpty then none else some (String.ofList language)

/-- The node of a code block, given the number of its first line, its opening fence and the lines
between its fences. -/
def codeNode (number : Nat) (fence : List Char) (body : List (List Char)) : Node :=
  ⟨.code (languageOf fence), join "\n" (body.map String.ofList), number⟩

/-- The code block between the fences of two numbers. -/
def codeBlock (lines : List (List Char)) (fences : Nat × Nat) : Node :=
  codeNode fences.1 (lines.getD (fences.1 - 1) []) ((lines.take (fences.2 - 1)).drop fences.1)

/-- Whether a node is a code block. -/
def Node.isCode (node : Node) : Bool :=
  match node.kind with
  | .code _ => true
  | _ => false

/-- Whether the nodes of a document account for its lines. -/
structure Covers (lines : List (List Char)) (nodes : List Node) : Prop where
  /-- The numbers of the nodes increase. -/
  ordered : nodes.Pairwise (·.line < ·.line)
  /-- They are numbers of lines. -/
  numbered : ∀ node ∈ nodes, 1 ≤ node.line ∧ node.line ≤ lines.length
  /-- A line outside of code blocks that is not blank makes exactly one node, and no code block. -/
  plain : ∀ before line after, lines = before ++ line :: after → Outside before line →
    allBlank line = false → ∃ node, nodes.filter (·.line = before.length + 1) = [node] ∧
      node.isCode = false
  /-- A blank line outside of code blocks makes none. -/
  blank : ∀ before line after, lines = before ++ line :: after → Outside before line →
    allBlank line = true → nodes.filter (·.line = before.length + 1) = []
  /-- The nodes that are no code blocks come from such lines. -/
  origin : ∀ node ∈ nodes, node.isCode = false → ∃ before line after,
    lines = before ++ line :: after ∧ Outside before line ∧ allBlank line = false ∧
      node.line = before.length + 1
  /-- Every fence has its partner. -/
  paired : Even (lines.countP isFence)
  /-- The code blocks are those between the pairs of fences. -/
  code : nodes.filter (·.isCode) = (pairs (fenceNumbers 1 lines)).map (codeBlock lines)

/-! ## What a line makes -/

section Line
variable {line : List Char} {number : Nat} {node : Node}

theorem isFence_iff : isFence line = true ↔ fenceMark <+: line := List.isPrefixOf_iff_prefix

theorem fence_of_after? {info : List Char} (h : after? fenceMark line = some info) :
    line = fenceMark ++ info := after?_some.mp h

theorem isFence_append (info : List Char) : isFence (fenceMark ++ info) = true :=
  isFence_iff.mpr ⟨info, rfl⟩

theorem isFence_of_after?_none (h : after? fenceMark line = none) : isFence line = false := by
  rw [Bool.eq_false_iff]
  exact fun hfence => after?_eq_none_iff.mp h (isFence_iff.mp hfence)

/-- A blank line starts with no mark. -/
theorem ne_of_allBlank {c mark : Char} {rest : List Char} (h : allBlank (c :: rest))
    (hmark : isBlank mark = false) : c ≠ mark := by
  rintro rfl
  rw [allBlank, List.all_cons, Bool.and_eq_true] at h
  exact absurd h.1 (by simp [hmark])

namespace Block

theorem heading?_of_allBlank (h : allBlank line) : heading? line = none := by
  have hmarks : line.takeWhile (· == '#') = [] := by
    cases line with
    | nil => rfl
    | cons c rest => exact List.takeWhile_cons_of_neg (by simpa using ne_of_allBlank h (by decide))
  rw [heading?, hmarks]
  rfl

theorem isRule_of_allBlank (h : allBlank line) : isRule line = false := by
  rw [isRule, trim_eq_nil_iff.mpr h]
  rfl

theorem quote?_of_allBlank (h : allBlank line) : quote? line = none := by
  cases line with
  | nil => rfl
  | cons c rest =>
    unfold quote?
    split
    · rename_i heq
      exact absurd (List.cons.inj heq).1 (ne_of_allBlank h (by decide))
    · rfl

theorem item?_of_allBlank (h : allBlank line) : item? line = none := by
  rw [item?, trimLeft_eq_nil_iff.mpr h]
  rfl

/-- **A line makes a block** exactly when it is not blank: the last rule takes what the others
leave. -/
theorem classify_eq_none_iff : classify line = none ↔ allBlank line := by
  constructor
  · intro h
    unfold classify at h
    split at h
    · cases h
    split at h
    · cases h
    split at h
    · cases h
    split at h
    · cases h
    · dsimp only at h
      split at h
      · rename_i hempty
        exact trim_eq_nil_iff.mp (List.isEmpty_iff.mp hempty)
      · cases h
  · intro h
    rw [classify, heading?_of_allBlank h, isRule_of_allBlank h, quote?_of_allBlank h,
      item?_of_allBlank h, trim_eq_nil_iff.mpr h]
    rfl

theorem classify_ne_code {kind : Block} {text : List Char} (h : classify line = some (kind, text))
    (language : Option String) : kind ≠ .code language := by
  unfold classify at h
  rintro rfl
  split at h
  · cases h
  split at h
  · cases h
  split at h
  · cases h
  split at h
  · cases h
  · dsimp only at h
    split at h <;> cases h

end Block

theorem lineNode?_eq_none_iff : lineNode? number line = none ↔ allBlank line := by
  rw [lineNode?, Option.map_eq_none_iff, Block.classify_eq_none_iff]

theorem lineNode?_some (h : lineNode? number line = some node) :
    node.line = number ∧ node.isCode = false := by
  obtain ⟨⟨kind, text⟩, hclassify, rfl⟩ := Option.map_eq_some_iff.mp h
  refine ⟨rfl, ?_⟩
  unfold Node.isCode
  split
  · rename_i language hkind
    exact absurd hkind (Block.classify_ne_code hclassify language)
  · rfl

end Line

/-! ## Segments -/

/-- A part of a document: a line outside of code blocks, or a code block, given by what follows the
marks of its two fences and the lines between them. -/
inductive Segment where
  | plain (line : List Char)
  | fenced (info : List Char) (body : List (List Char)) (trailing : List Char)

namespace Segment

/-- The lines of a segment. -/
def lines : Segment → List (List Char)
  | plain line => [line]
  | fenced info body trailing => (fenceMark ++ info) :: (body ++ [fenceMark ++ trailing])

/-- Whether a segment has no fences but its own. -/
def Proper : Segment → Prop
  | plain line => isFence line = false
  | fenced _ body _ => ∀ line ∈ body, isFence line = false

/-- The node of a segment whose first line has the given number. -/
def node? (number : Nat) : Segment → Option Node
  | plain line => lineNode? number line
  | fenced info body _ => some (codeNode number (fenceMark ++ info) body)

theorem length_lines_fenced (info : List Char) (body : List (List Char)) (trailing : List Char) :
    (fenced info body trailing).lines.length = body.length + 2 := by
  rw [lines, List.length_cons, List.length_append, List.length_singleton]

end Segment

theorem node_opened (number : Nat) (info : List Char) (body : List (List Char)) :
    Fence.node { Fence.opened number info with body := body.reverse } =
      codeNode number (fenceMark ++ info) body := by
  rw [Fence.node, codeNode, languageOf, List.drop_left, List.reverse_reverse]
  rfl

/-- The lines of a sequence of segments. -/
def linesOf (segments : List Segment) : List (List Char) := segments.flatMap Segment.lines

/-- The nodes of a sequence of segments whose first line has the given number. -/
def nodesOf : (number : Nat) → List Segment → List Node
  | _, [] => []
  | number, segment :: segments =>
    (segment.node? number).toList ++ nodesOf (number + segment.lines.length) segments

/-- Whether lines are a sequence of segments, and nodes are what it makes from a number on. -/
def Segmented (number : Nat) (lines : List (List Char)) (nodes : List Node) : Prop :=
  ∃ segments : List Segment, (∀ segment ∈ segments, segment.Proper) ∧ lines = linesOf segments ∧
    nodes = nodesOf number segments

/-- What nodes are to the lines that they are read from, from a number on. With an open fence the
lines start inside of its code block. -/
def Reading (number : Nat) : Option Fence → List (List Char) → List Node → Prop
  | none, lines, nodes => Segmented number lines nodes
  | some fence, lines, nodes => ∃ body trailing rest nodes',
      (∀ line ∈ body, isFence line = false) ∧ lines = body ++ (fenceMark ++ trailing) :: rest ∧
      Segmented (number + body.length + 1) rest nodes' ∧
      nodes = Fence.node { fence with body := body.reverse ++ fence.body } :: nodes'

/-- **A document that is read is a sequence of segments**, by induction on its lines. -/
theorem nodesFrom_reading {number : Nat} {fence : Option Fence} {lines : List (List Char)}
    {nodes : List Node} (h : nodesFrom number fence lines = .ok nodes) :
    Reading number fence lines nodes := by
  induction lines generalizing number fence nodes with
  | nil =>
    cases fence with
    | none =>
      cases h
      exact ⟨[], by simp, rfl, rfl⟩
    | some fence => cases h
  | cons line lines ih =>
    cases fence with
    | none =>
      rw [nodesFrom] at h
      split at h
      · -- An opening fence: the rest starts inside of its code block.
        rename_i info hinfo
        obtain ⟨body, trailing, rest, nodes', hbody, hlines, ⟨segments, hproper, rfl, rfl⟩, rfl⟩ :=
          ih h
        refine ⟨.fenced info body trailing :: segments, ?_, ?_, ?_⟩
        · exact List.forall_mem_cons.mpr ⟨hbody, hproper⟩
        · rw [fence_of_after? hinfo, hlines]
          simp [linesOf, Segment.lines]
        · rw [nodesOf, Segment.node?, ← node_opened, Segment.length_lines_fenced,
            show number + (body.length + 2) = number + 1 + body.length + 1 by omega]
          exact congrArg (fun body => Fence.node { Fence.opened number info with body } :: _)
            (List.append_nil _)
      · rename_i hnone
        obtain ⟨nodes', hrest, heq⟩ := Action.bind_ok.mp h
        obtain ⟨segments, hproper, rfl, rfl⟩ := ih hrest
        cases heq
        exact ⟨.plain line :: segments,
          List.forall_mem_cons.mpr ⟨isFence_of_after?_none hnone, hproper⟩, rfl, rfl⟩
    | some fence =>
      rw [nodesFrom] at h
      split at h
      · rename_i trailing htrailing
        obtain ⟨nodes', hrest, heq⟩ := Action.bind_ok.mp h
        cases heq
        exact ⟨[], trailing, lines, nodes', by simp, by rw [fence_of_after? htrailing]; rfl,
          ih hrest, rfl⟩
      · rename_i hnone
        obtain ⟨body, trailing, rest, nodes', hbody, hlines, hrest, rfl⟩ := ih h
        refine ⟨line :: body, trailing, rest, nodes', ?_, by rw [hlines]; rfl, ?_, ?_⟩
        · exact List.forall_mem_cons.mpr ⟨isFence_of_after?_none hnone, hbody⟩
        · rw [List.length_cons, show number + (body.length + 1) = number + 1 + body.length by omega]
          exact hrest
        · simp

/-! ## What segments make -/

section Segments
variable {segment : Segment} {segments : List Segment} {number : Nat} {node : Node}
  {before after : List (List Char)} {line : List Char}

theorem linesOf_cons (segment : Segment) (segments : List Segment) :
    linesOf (segment :: segments) = segment.lines ++ linesOf segments := List.flatMap_cons

theorem countP_eq_zero {lines : List (List Char)} (h : ∀ line ∈ lines, isFence line = false) :
    lines.countP isFence = 0 :=
  List.countP_eq_zero.mpr fun line hline => by simp [h line hline]

namespace Segment

theorem length_lines_pos (segment : Segment) : 0 < segment.lines.length := by
  cases segment with
  | plain line => exact Nat.one_pos
  | fenced info body trailing =>
    rw [length_lines_fenced]
    omega

theorem line_of_node? (h : node ∈ segment.node? number) : node.line = number := by
  cases segment with
  | plain line => exact (lineNode?_some h).1
  | fenced info body trailing =>
    cases h
    rfl

/-- A segment has no fence, or two. -/
theorem even_countP (h : segment.Proper) : Even (segment.lines.countP isFence) := by
  cases segment with
  | plain line =>
    rw [lines, countP_eq_zero (List.forall_mem_singleton.mpr h)]
    exact Even.zero
  | fenced info body trailing =>
    rw [lines, List.countP_cons, List.countP_append, countP_eq_zero h, List.countP_singleton,
      if_pos (isFence_append trailing), if_pos (isFence_append info)]
    exact ⟨1, rfl⟩

/-- A line of a segment that stands outside of code blocks is the whole segment. -/
theorem eq_plain_of_outside (h : segment.Proper) (hlines : segment.lines = before ++ line :: after)
    (houtside : Outside before line) : before = [] ∧ segment = .plain line := by
  cases segment with
  | plain other =>
    cases before with
    | nil =>
      cases hlines
      exact ⟨rfl, rfl⟩
    | cons b before => simp [lines] at hlines
  | fenced info body trailing =>
    obtain ⟨hline, heven⟩ := houtside
    cases before with
    | nil =>
      rw [← (List.cons.inj hlines).1, isFence_append] at hline
      cases hline
    | cons b before =>
      obtain ⟨rfl, -⟩ := List.cons.inj hlines
      have hrest : body ++ [fenceMark ++ trailing] = before ++ line :: after :=
        (List.cons.inj hlines).2
      rcases List.eq_nil_or_concat after with rfl | ⟨after, last, rfl⟩
      · -- The line would be the closing fence.
        obtain ⟨-, hlast⟩ := List.append_inj' hrest rfl
        rw [← List.singleton_inj.mp hlast, isFence_append] at hline
        cases hline
      · -- The line would be one of the body, so that only the opening fence precedes it.
        rw [List.concat_eq_append, ← List.cons_append, ← List.append_assoc] at hrest
        obtain ⟨rfl, -⟩ := List.append_inj' hrest rfl
        have hbefore : before.countP isFence = 0 :=
          countP_eq_zero fun other hother => h other (List.mem_append_left _ hother)
        rw [List.countP_cons, hbefore, if_pos (isFence_append info)] at heven
        exact absurd heven (by decide)

end Segment

theorem nodesOf_bounds (h : node ∈ nodesOf number segments) :
    number ≤ node.line ∧ node.line < number + (linesOf segments).length := by
  induction segments generalizing number with
  | nil => cases h
  | cons segment segments ih =>
    have hpos := segment.length_lines_pos
    rw [linesOf_cons, List.length_append]
    rcases List.mem_append.mp h with h | h
    · have hline := Segment.line_of_node? (Option.mem_toList.mp h)
      omega
    · have hbounds := ih h
      omega

theorem nodesOf_ordered (number : Nat) (segments : List Segment) :
    (nodesOf number segments).Pairwise (·.line < ·.line) := by
  induction segments generalizing number with
  | nil => exact List.Pairwise.nil
  | cons segment segments ih =>
    refine List.pairwise_append.mpr ⟨?_, ih _, fun node hnode other hother => ?_⟩
    · cases segment.node? number with
      | none => exact List.Pairwise.nil
      | some node => exact List.pairwise_singleton _ node
    · have hline := Segment.line_of_node? (Option.mem_toList.mp hnode)
      have hbounds := nodesOf_bounds hother
      have hpos := segment.length_lines_pos
      omega

/-- A line of a sequence of segments that stands outside of code blocks is the first segment, or
stands outside in those that follow it. -/
theorem outside_cases (h : segment.Proper)
    (hlines : segment.lines ++ linesOf segments = before ++ line :: after)
    (houtside : Outside before line) :
    (before = [] ∧ segment = .plain line) ∨
      ∃ rest, before = segment.lines ++ rest ∧ linesOf segments = rest ++ line :: after ∧
        Outside rest line := by
  have hskip (rest : List (List Char)) (hbefore : before = segment.lines ++ rest) :
      Outside rest line := by
    obtain ⟨hline, heven⟩ := houtside
    rw [hbefore, List.countP_append] at heven
    exact ⟨hline, (Nat.even_add.mp heven).mp (Segment.even_countP h)⟩
  -- The segment ends before the line, or right before it, or holds it.
  rcases List.append_eq_append_iff.mp hlines with ⟨rest, hbefore, hrest⟩ | ⟨mid, hmid, hrest⟩
  · exact .inr ⟨rest, hbefore, hrest, hskip rest hbefore⟩
  · cases mid with
    | nil =>
      have hbefore : before = segment.lines ++ [] := by rw [hmid, List.append_nil, List.append_nil]
      exact .inr ⟨[], hbefore, hrest.symm, hskip [] hbefore⟩
    | cons other mid =>
      obtain ⟨rfl, -⟩ := List.cons.inj hrest
      exact .inl (Segment.eq_plain_of_outside h hmid houtside)

theorem nodesOf_outside (number : Nat) (h : ∀ segment ∈ segments, segment.Proper)
    (hlines : linesOf segments = before ++ line :: after) (houtside : Outside before line) :
    (nodesOf number segments).filter (·.line = number + before.length) =
      (lineNode? (number + before.length) line).toList := by
  induction segments generalizing number before with
  | nil => simp [linesOf] at hlines
  | cons segment segments ih =>
    obtain ⟨hsegment, hsegments⟩ := List.forall_mem_cons.mp h
    rw [linesOf_cons] at hlines
    rw [nodesOf, List.filter_append]
    rcases outside_cases hsegment hlines houtside with ⟨rfl, rfl⟩ | ⟨rest, rfl, hrest, houtside⟩
    · -- The line is the first segment, and later segments have greater numbers.
      have hfirst : ∀ node ∈ (lineNode? number line).toList,
          decide (node.line = number + ([] : List (List Char)).length) = true := by
        intro node hnode
        exact decide_eq_true (lineNode?_some (Option.mem_toList.mp hnode)).1
      have hothers : ∀ node ∈ nodesOf (number + 1) segments,
          ¬ decide (node.line = number + ([] : List (List Char)).length) = true := by
        intro node hnode
        have hbounds := nodesOf_bounds hnode
        rw [decide_eq_true_iff, List.length_nil]
        omega
      exact (congrArg₂ (· ++ ·) (List.filter_eq_self.mpr hfirst)
        (List.filter_eq_nil_iff.mpr hothers)).trans (List.append_nil _)
    · -- The line is in a later segment, whose number is greater than that of the first one.
      have hfirst : ∀ node ∈ (segment.node? number).toList,
          ¬ decide (node.line = number + (segment.lines ++ rest).length) = true := by
        intro node hnode
        have hline := Segment.line_of_node? (Option.mem_toList.mp hnode)
        have hpos := segment.length_lines_pos
        rw [decide_eq_true_iff, List.length_append]
        omega
      have hnodes := ih (number + segment.lines.length) hsegments hrest houtside
      rw [List.filter_eq_nil_iff.mpr hfirst, List.nil_append]
      rwa [Nat.add_assoc, ← List.length_append] at hnodes

theorem nodesOf_origin (h : ∀ segment ∈ segments, segment.Proper)
    (hnode : node ∈ nodesOf number segments) (hcode : node.isCode = false) :
    ∃ before line after, linesOf segments = before ++ line :: after ∧ Outside before line ∧
      lineNode? (number + before.length) line = some node := by
  induction segments generalizing number with
  | nil => cases hnode
  | cons segment segments ih =>
    obtain ⟨hsegment, hsegments⟩ := List.forall_mem_cons.mp h
    rcases List.mem_append.mp hnode with hfirst | hrest
    · cases segment with
      | plain line =>
        exact ⟨[], line, linesOf segments, rfl, ⟨hsegment, Even.zero⟩, Option.mem_toList.mp hfirst⟩
      | fenced info body trailing =>
        cases Option.mem_toList.mp hfirst
        cases hcode
    · obtain ⟨before, line, after, hlines, ⟨hline, heven⟩, hmade⟩ := ih hsegments hrest
      refine ⟨segment.lines ++ before, line, after, ?_, ⟨hline, ?_⟩, ?_⟩
      · rw [linesOf_cons, hlines, List.append_assoc]
      · rw [List.countP_append]
        exact (Segment.even_countP hsegment).add heven
      · rwa [List.length_append, ← Nat.add_assoc]

theorem linesOf_paired (h : ∀ segment ∈ segments, segment.Proper) :
    Even ((linesOf segments).countP isFence) := by
  induction segments with
  | nil => exact Even.zero
  | cons segment segments ih =>
    obtain ⟨hsegment, hsegments⟩ := List.forall_mem_cons.mp h
    rw [linesOf_cons, List.countP_append]
    exact (Segment.even_countP hsegment).add (ih hsegments)

end Segments

/-! ## Fences and code blocks -/

section Fences
variable {segment : Segment} {segments : List Segment}

theorem fenceNumbers_append (first : Nat) (a b : List (List Char)) :
    fenceNumbers first (a ++ b) = fenceNumbers first a ++ fenceNumbers (first + a.length) b := by
  rw [fenceNumbers, List.zipIdx_append, List.filter_append, List.map_append]
  rfl

theorem fenceNumbers_cons (number : Nat) (line : List Char) (lines : List (List Char)) :
    fenceNumbers number (line :: lines) =
      (if isFence line then [number] else []) ++ fenceNumbers (number + 1) lines := by
  rw [fenceNumbers, List.zipIdx_cons, List.filter_cons]
  split <;> rfl

theorem fenceNumbers_eq_nil {number : Nat} {lines : List (List Char)}
    (h : ∀ line ∈ lines, isFence line = false) : fenceNumbers number lines = [] := by
  induction lines generalizing number with
  | nil => rfl
  | cons line lines ih =>
    obtain ⟨hline, hlines⟩ := List.forall_mem_cons.mp h
    rw [fenceNumbers_cons, hline, ih hlines]
    rfl

theorem fenceNumbers_fenced (number : Nat) {info : List Char} {body : List (List Char)}
    (trailing : List Char) (h : ∀ line ∈ body, isFence line = false) :
    fenceNumbers number (Segment.fenced info body trailing).lines =
      [number, number + body.length + 1] := by
  rw [Segment.lines, fenceNumbers_cons, fenceNumbers_append, fenceNumbers_eq_nil h,
    fenceNumbers_cons, isFence_append, isFence_append, Nat.add_right_comm]
  rfl

/-- The lines between the fences of a segment, wherever it stands in the document. -/
theorem codeBlock_fenced (before after : List (List Char)) (info : List Char)
    (body : List (List Char)) (trailing : List Char) :
    codeBlock (before ++ ((Segment.fenced info body trailing).lines ++ after))
        (before.length + 1, before.length + 1 + body.length + 1) =
      codeNode (before.length + 1) (fenceMark ++ info) body := by
  have hlines : before ++ ((Segment.fenced info body trailing).lines ++ after) =
      (before ++ [fenceMark ++ info]) ++ (body ++ ([fenceMark ++ trailing] ++ after)) := by
    simp [Segment.lines]
  have hfence : (before ++ ((Segment.fenced info body trailing).lines ++ after)).getD
      (before.length + 1 - 1) [] = fenceMark ++ info := by
    simp [Segment.lines]
  have hbody : ((before ++ ((Segment.fenced info body trailing).lines ++ after)).take
      (before.length + 1 + body.length + 1 - 1)).drop (before.length + 1) = body := by
    rw [hlines, List.drop_take, List.drop_left' (by simp), List.take_left' (by omega)]
  rw [codeBlock, hfence, hbody]

/-- **The code blocks** are those between the pairs of fences, by induction on the segments;
`before` is what precedes them. -/
theorem nodesOf_code (h : ∀ segment ∈ segments, segment.Proper) (before : List (List Char)) :
    (nodesOf (before.length + 1) segments).filter (·.isCode) =
      (pairs (fenceNumbers (before.length + 1) (linesOf segments))).map
        (codeBlock (before ++ linesOf segments)) := by
  induction segments generalizing before with
  | nil => rfl
  | cons segment segments ih =>
    obtain ⟨hsegment, hsegments⟩ := List.forall_mem_cons.mp h
    -- What precedes the other segments ends with the lines of the first one.
    have hrest := ih hsegments (before ++ segment.lines)
    rw [List.length_append, Nat.add_right_comm, List.append_assoc] at hrest
    rw [nodesOf, List.filter_append, linesOf_cons, fenceNumbers_append, hrest]
    cases segment with
    | plain line =>
      have hfirst : (lineNode? (before.length + 1) line).toList.filter (·.isCode) = [] := by
        refine List.filter_eq_nil_iff.mpr fun node hnode => ?_
        simp [(lineNode?_some (Option.mem_toList.mp hnode)).2]
      rw [Segment.node?, hfirst, Segment.lines,
        fenceNumbers_eq_nil (List.forall_mem_singleton.mpr hsegment)]
      rfl
    | fenced info body trailing =>
      rw [fenceNumbers_fenced _ trailing hsegment]
      refine congrArg (· :: _) (codeBlock_fenced before _ info body trailing).symm

end Fences

/-- **The lines of a document are covered.** The nodes of a document that is read account for each
of its lines. -/
theorem parse_covers (content : String) (nodes : List Node) (h : parse content = .ok nodes) :
    Covers (contentLines content) nodes := by
  obtain ⟨segments, hproper, hlines, rfl⟩ := nodesFrom_reading h
  rw [hlines]
  exact {
    ordered := nodesOf_ordered 1 segments
    numbered := fun node hnode => by
      have hbounds := nodesOf_bounds hnode
      omega
    plain := fun before line after hsplit houtside hblank => by
      have hnodes := nodesOf_outside 1 hproper hsplit houtside
      rw [Nat.add_comm 1 before.length] at hnodes
      cases hmade : lineNode? (before.length + 1) line with
      | none => simp [lineNode?_eq_none_iff.mp hmade] at hblank
      | some node => exact ⟨node, by rw [hnodes, hmade]; rfl, (lineNode?_some hmade).2⟩
    blank := fun before line after hsplit houtside hblank => by
      have hnodes := nodesOf_outside 1 hproper hsplit houtside
      rw [Nat.add_comm 1 before.length] at hnodes
      rw [hnodes, lineNode?_eq_none_iff.mpr hblank]
      rfl
    origin := fun node hnode hcode => by
      obtain ⟨before, line, after, hsplit, houtside, hmade⟩ := nodesOf_origin hproper hnode hcode
      refine ⟨before, line, after, hsplit, houtside, ?_, ?_⟩
      · rw [Bool.eq_false_iff]
        intro hblank
        rw [lineNode?_eq_none_iff.mpr hblank] at hmade
        cases hmade
      · rw [(lineNode?_some hmade).1, Nat.add_comm]
    paired := linesOf_paired hproper
    code := nodesOf_code hproper [] }

/-- A document with a code block, blank lines inside and outside of it, and a list after it. -/
def sampleContent : String := "# T\n\x60\x60\x60py\r\na\r\n\n# b\n\x60\x60\x60\n \r\n- x\n> q"

theorem parse_covers_sample :
    parse sampleContent = .ok [⟨.heading 1, "T", 1⟩, ⟨.code (some "py"), "a\n\n# b", 2⟩,
      ⟨.item false 0, "x", 8⟩, ⟨.quote, "q", 9⟩] ∧
    Covers (contentLines sampleContent) [⟨.heading 1, "T", 1⟩,
      ⟨.code (some "py"), "a\n\n# b", 2⟩, ⟨.item false 0, "x", 8⟩, ⟨.quote, "q", 9⟩] :=
  ⟨rfl, parse_covers _ _ rfl⟩

end SpecDraft.Markdown
