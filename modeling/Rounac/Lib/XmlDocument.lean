import Mathlib.Data.List.Infix
import Rounac.Lib.StepSystem

/-!
# Element documents of XML

A machine that reads a document character by character: the start tag of the root, the nested
content, the end tags. It covers the documents made of one element, its attributes, and children
that are elements or text; references are kept as they are written.

A new attribute can be spliced into the text of a document without parsing it. Before the first
`>` the machine is inside the root's start tag (`run_rootTag`), and unless that `>` ends an
empty-element tag, the document with the attribute is read as the same tree with the attribute
at its root (`parse_splice`). In an empty-element tag the same place lies between `/` and `>`,
where nothing may stand (`parse_splice_of_closed`).
-/

namespace Xml

open StepSystem

/-! ## Characters -/

/-- `S`. -/
def isSpace (c : Char) : Bool := c == ' ' || c == '\t' || c == '\r' || c == '\n'

/-- `c` lies in one of the ranges. -/
def inRanges (rs : List (ℕ × ℕ)) (c : Char) : Bool :=
  rs.any fun r => r.1 ≤ c.toNat && c.toNat ≤ r.2

/-- `Char`. -/
def isChar : Char → Bool :=
  inRanges [(0x9, 0xA), (0xD, 0xD), (0x20, 0xD7FF), (0xE000, 0xFFFD), (0x10000, 0x10FFFF)]

/-- `NameStartChar`. -/
def isNameStart : Char → Bool :=
  inRanges [(0x3A, 0x3A), (0x41, 0x5A), (0x5F, 0x5F), (0x61, 0x7A), (0xC0, 0xD6), (0xD8, 0xF6),
    (0xF8, 0x2FF), (0x370, 0x37D), (0x37F, 0x1FFF), (0x200C, 0x200D), (0x2070, 0x218F),
    (0x2C00, 0x2FEF), (0x3001, 0xD7FF), (0xF900, 0xFDCF), (0xFDF0, 0xFFFD), (0x10000, 0xEFFFF)]

/-- `NameChar`. -/
def isNameChar (c : Char) : Bool :=
  isNameStart c ||
    inRanges [(0x2D, 0x2E), (0x30, 0x39), (0xB7, 0xB7), (0x300, 0x36F), (0x203F, 0x2040)] c

/-- `Name`. -/
def isName : List Char → Bool
  | [] => false
  | c :: cs => isNameStart c && cs.all isNameChar

/-- What stands between `&` and `;` in a reference. -/
def isReference : List Char → Bool
  | '#' :: 'x' :: ds => ds ≠ [] && ds.all fun d => d.isDigit || ('a' ≤ d.toLower && d.toLower ≤ 'f')
  | '#' :: ds => ds ≠ [] && ds.all Char.isDigit
  | body => isName body

/-- Every `&` starts a reference; `some body` is what was read of one. -/
def referencesOk : Option (List Char) → List Char → Bool
  | none, [] => true
  | some _, [] => false
  | none, c :: cs => referencesOk (if c = '&' then some [] else none) cs
  | some body, c :: cs =>
    if c = ';' then isReference body && referencesOk none cs
    else referencesOk (some (body ++ [c])) cs

/-- A text that may stand as an attribute's value, delimiters apart. -/
def isValue (v : List Char) : Bool := v.all isChar && referencesOk none v

/-- `CharData` with references. -/
def isText (s : List Char) : Bool := isValue s && decide ¬ [']', ']', '>'] <:+: s

/-! ## Trees -/

structure Attr where
  name : List Char
  value : List Char
deriving DecidableEq, Repr

/-- A start tag. -/
structure Tag where
  name : List Char
  attrs : List Attr
deriving DecidableEq, Repr

/-- A child of an element. -/
inductive Node
  | text (s : List Char)
  | elem (tag : Tag) (children : List Node)

/-- An element, or the part of it that was read. -/
structure Element where
  tag : Tag
  children : List Node

def Tag.add (t : Tag) (a : Attr) : Tag := { t with attrs := t.attrs ++ [a] }

def Element.addAttr (e : Element) (a : Attr) : Element := { e with tag := e.tag.add a }

def Element.push (e : Element) (xs : List Node) : Element :=
  { e with children := e.children ++ xs }

/-! ## Start tags -/

/-- The delimiters of a value. -/
inductive Quote
  | single
  | double
deriving DecidableEq, Repr

def Quote.char : Quote → Char
  | .single => '\''
  | .double => '"'

/-- What was read of a start tag. -/
inductive TagMode
  | start
  | name (n : List Char)
  | gap (t : Tag)
  | attrName (t : Tag) (n : List Char)
  | beforeEq (t : Tag) (n : List Char)
  | afterEq (t : Tag) (n : List Char)
  | value (t : Tag) (n : List Char) (q : Quote) (v : List Char)
  | afterValue (t : Tag)
  | slash (t : Tag)

/-- The outcome of reading a character of a start tag: there is more of it, or it ends, as the
tag of an element with content or of an empty one. -/
inductive TagStep
  | more (m : TagMode)
  | opened (t : Tag)
  | closed (t : Tag)

/-- What may follow a name or a value. -/
def Tag.delim (t : Tag) (c : Char) : Option TagStep :=
  if isSpace c then some (.more (.gap t))
  else if c = '/' then some (.more (.slash t))
  else if c = '>' then some (.opened t)
  else none

def TagMode.step : TagMode → Char → Option TagStep
  | .start, c => if isNameStart c then some (.more (.name [c])) else none
  | .name n, c => if isNameChar c then some (.more (.name (n ++ [c]))) else Tag.delim ⟨n, []⟩ c
  | .gap t, c => if isNameStart c then some (.more (.attrName t [c])) else t.delim c
  | .attrName t n, c =>
    if isNameChar c then some (.more (.attrName t (n ++ [c])))
    else if isSpace c then some (.more (.beforeEq t n))
    else if c = '=' then some (.more (.afterEq t n))
    else none
  | .beforeEq t n, c =>
    if isSpace c then some (.more (.beforeEq t n))
    else if c = '=' then some (.more (.afterEq t n))
    else none
  | .afterEq t n, c =>
    if isSpace c then some (.more (.afterEq t n))
    else if c = '"' then some (.more (.value t n .double []))
    else if c = '\'' then some (.more (.value t n .single []))
    else none
  | .value t n q v, c =>
    if c = q.char then
      -- No attribute may be given twice.
      if isValue v ∧ ∀ a ∈ t.attrs, a.name ≠ n then some (.more (.afterValue (t.add ⟨n, v⟩)))
      else none
    else if c = '<' then none
    else some (.more (.value t n q (v ++ [c])))
  | .afterValue t, c => t.delim c
  | .slash t, c => if c = '>' then some (.closed t) else none

/-! ## Documents -/

/-- Where the machine stands in an element's content. -/
inductive Mode
  | text (s : List Char)
  | lt
  | tag (m : TagMode)
  | endName (n : List Char)
  | endGap (n : List Char)

/-- What was read of a document. `above` are the open elements inside the root, innermost
first. -/
inductive State
  | prolog
  | rootTag (m : TagMode)
  | inside (root : Element) (above : List Element) (m : Mode)
  | done (root : Element)

/-- Give children to the innermost open element. -/
def addChildren (root : Element) (above : List Element) (xs : List Node) (m : Mode) : State :=
  match above with
  | [] => .inside (root.push xs) [] m
  | e :: es => .inside root (e.push xs :: es) m

/-- The end tag `</n>` of the innermost open element. -/
def close (root : Element) (above : List Element) (n : List Char) : Option State :=
  match above with
  | [] => if root.tag.name = n then some (.done root) else none
  | e :: es =>
    if e.tag.name = n then some (addChildren root es [.elem e.tag e.children] (.text [])) else none

def childTag (root : Element) (above : List Element) : TagStep → State
  | .more m => .inside root above (.tag m)
  | .opened t => .inside root (⟨t, []⟩ :: above) (.text [])
  | .closed t => addChildren root above [.elem t []] (.text [])

def Mode.step (root : Element) (above : List Element) : Mode → Char → Option State
  | .text s, c =>
    if c = '<' then
      if s = [] then some (.inside root above .lt)
      else if isText s then some (addChildren root above [.text s] .lt)
      else none
    else some (.inside root above (.text (s ++ [c])))
  | .lt, c =>
    if c = '/' then some (.inside root above (.endName []))
    else (TagMode.start.step c).map (childTag root above)
  | .tag m, c => (m.step c).map (childTag root above)
  | .endName n, c =>
    if isNameChar c then some (.inside root above (.endName (n ++ [c])))
    else if isSpace c then some (.inside root above (.endGap n))
    else if c = '>' then close root above n
    else none
  | .endGap n, c =>
    if isSpace c then some (.inside root above (.endGap n))
    else if c = '>' then close root above n
    else none

def State.step : State → Char → Option State
  | .prolog, c =>
    if isSpace c then some .prolog
    else if c = '<' then some (.rootTag .start)
    else none
  | .rootTag m, c =>
    (m.step c).map fun
      | .more m' => .rootTag m'
      | .opened t => .inside ⟨t, []⟩ [] (.text [])
      | .closed t => .done ⟨t, []⟩
  | .inside root above m, c => m.step root above c
  | .done root, c => if isSpace c then some (.done root) else none

/-- The element a document consists of. -/
def parse (s : List Char) : Option Element :=
  match run State.step .prolog s with
  | some (.done root) => some root
  | _ => none

theorem parse_eq_some {s : List Char} {e : Element} :
    parse s = some e ↔ run State.step .prolog s = some (.done e) := by
  unfold parse
  split
  · rename_i root h
    rw [h]
    simp
  · rename_i h
    simpa using fun he => h e he

/-! ## Up to the first `>` -/

theorem Tag.delim_more {t : Tag} {c : Char} {r : TagStep} (hc : c ≠ '>') (h : t.delim c = some r) :
    ∃ m, r = .more m := by
  unfold Tag.delim at h
  split_ifs at h
  all_goals
    cases h
    exact ⟨_, rfl⟩

/-- A start tag ends at a `>` only. -/
theorem TagMode.step_more {m : TagMode} {c : Char} {r : TagStep} (hc : c ≠ '>')
    (h : m.step c = some r) : ∃ m', r = .more m' := by
  cases m with
  | start | attrName t n | beforeEq t n | afterEq t n | value t n q v =>
    simp only [TagMode.step] at h
    split_ifs at h
    all_goals
      cases h
      exact ⟨_, rfl⟩
  | name n =>
    simp only [TagMode.step] at h
    split_ifs at h
    · cases h
      exact ⟨_, rfl⟩
    · exact Tag.delim_more hc h
  | gap t =>
    simp only [TagMode.step] at h
    split_ifs at h
    · cases h
      exact ⟨_, rfl⟩
    · exact Tag.delim_more hc h
  | afterValue t => exact Tag.delim_more hc h
  | slash t => simp [TagMode.step, hc] at h

/-- The machine has not left the root's start tag. -/
def State.Opening : State → Prop
  | .prolog | .rootTag _ => True
  | .inside _ _ _ | .done _ => False

theorem State.step_opening {σ σ' : State} {c : Char} (hσ : σ.Opening) (hc : c ≠ '>')
    (h : σ.step c = some σ') : σ'.Opening := by
  cases σ with
  | prolog =>
    simp only [State.step] at h
    split_ifs at h
    all_goals
      cases h
      trivial
  | rootTag m =>
    obtain ⟨r, hr, rfl⟩ := Option.map_eq_some_iff.1 h
    obtain ⟨m', rfl⟩ := TagMode.step_more hc hr
    trivial
  | inside root above m => exact hσ.elim
  | done root => exact hσ.elim

theorem run_opening {front : List Char} {σ : State} (hfront : '>' ∉ front)
    (h : run State.step .prolog front = some σ) : σ.Opening :=
  (Always.of_inv (s := .prolog) (fun _ _ _ => State.step_opening) trivial
    (EachStep.of_mem (G := (· ≠ '>')) (fun _ hc he => hfront (he ▸ hc)) _)).last h

/-! ## The root's tag -/

/-- The start tag of the root, once it was read. -/
def State.root? : State → Option Tag
  | .prolog | .rootTag _ => none
  | .inside root _ _ | .done root => some root.tag

@[simp] theorem root?_addChildren (root : Element) (above : List Element) (xs : List Node)
    (m : Mode) : (addChildren root above xs m).root? = some root.tag := by
  cases above <;> rfl

@[simp] theorem root?_childTag (root : Element) (above : List Element) (r : TagStep) :
    (childTag root above r).root? = some root.tag := by
  cases r with
  | more m => rfl
  | opened t => rfl
  | closed t => exact root?_addChildren ..

theorem root?_of_close {root : Element} {above : List Element} {n : List Char} {σ : State}
    (h : close root above n = some σ) : σ.root? = some root.tag := by
  cases above with
  | nil =>
    simp only [close] at h
    split_ifs at h
    cases h
    rfl
  | cons e es =>
    simp only [close] at h
    split_ifs at h
    cases h
    exact root?_addChildren ..

theorem Mode.step_root? {root : Element} {above : List Element} {m : Mode} {c : Char} {σ : State}
    (h : m.step root above c = some σ) : σ.root? = some root.tag := by
  cases m with
  | text s =>
    simp only [Mode.step] at h
    split_ifs at h
    all_goals
      cases h
      first | rfl | exact root?_addChildren ..
  | lt =>
    simp only [Mode.step] at h
    split_ifs at h
    · cases h
      rfl
    · obtain ⟨r, -, rfl⟩ := Option.map_eq_some_iff.1 h
      exact root?_childTag ..
  | tag m =>
    obtain ⟨r, -, rfl⟩ := Option.map_eq_some_iff.1 h
    exact root?_childTag ..
  | endName n =>
    simp only [Mode.step] at h
    split_ifs at h
    · cases h
      rfl
    · cases h
      rfl
    · exact root?_of_close h
  | endGap n =>
    simp only [Mode.step] at h
    split_ifs at h
    · cases h
      rfl
    · exact root?_of_close h

theorem State.step_root? {σ σ' : State} {c : Char} {t : Tag} (hσ : σ.root? = some t)
    (h : σ.step c = some σ') : σ'.root? = some t := by
  cases σ with
  | prolog => cases hσ
  | rootTag m => cases hσ
  | inside root above m =>
    cases hσ
    exact Mode.step_root? h
  | done root =>
    cases hσ
    simp only [State.step] at h
    split_ifs at h
    cases h
    rfl

theorem run_root? {σ σ' : State} {cs : List Char} {t : Tag} (hσ : σ.root? = some t)
    (h : run State.step σ cs = some σ') : σ'.root? = some t :=
  (Always.of_step (fun _ _ _ => State.step_root?) cs hσ).last h

/-! ## A character in the root's values -/

/-- `x` stands in a value of the tag. -/
def Tag.Has (x : Char) (t : Tag) : Prop := ∃ a ∈ t.attrs, x ∈ a.value

theorem Tag.has_add {x : Char} {t : Tag} {a : Attr} :
    (t.add a).Has x ↔ t.Has x ∨ x ∈ a.value := by
  simp only [Tag.Has, Tag.add, List.mem_append, List.mem_singleton]
  constructor
  · rintro ⟨b, hb | rfl, hx⟩
    · exact Or.inl ⟨b, hb, hx⟩
    · exact Or.inr hx
  · rintro (⟨b, hb, hx⟩ | hx)
    · exact ⟨b, Or.inl hb, hx⟩
    · exact ⟨a, Or.inr rfl, hx⟩

/-- `x` stands in a value read so far, or in the value being read. -/
def TagMode.Has (x : Char) : TagMode → Prop
  | .start | .name _ => False
  | .gap t | .attrName t _ | .beforeEq t _ | .afterEq t _ | .afterValue t | .slash t => t.Has x
  | .value t _ _ v => t.Has x ∨ x ∈ v

def TagStep.Has (x : Char) : TagStep → Prop
  | .more m => m.Has x
  | .opened t | .closed t => t.Has x

def State.Has (x : Char) : State → Prop
  | .prolog => False
  | .rootTag m => m.Has x
  | .inside root _ _ | .done root => root.tag.Has x

theorem Tag.delim_has {x : Char} {t : Tag} {c : Char} {r : TagStep} (ht : t.Has x)
    (h : t.delim c = some r) : r.Has x := by
  unfold Tag.delim at h
  split_ifs at h
  all_goals
    cases h
    exact ht

theorem TagMode.step_has {x : Char} {m : TagMode} {c : Char} {r : TagStep} (hm : m.Has x)
    (h : m.step c = some r) : r.Has x := by
  cases m with
  | start => exact hm.elim
  | name n => exact hm.elim
  | gap t =>
    simp only [TagMode.step] at h
    split_ifs at h
    · cases h
      exact hm
    · exact Tag.delim_has hm h
  | attrName t n | beforeEq t n | slash t =>
    simp only [TagMode.step] at h
    split_ifs at h
    all_goals
      cases h
      exact hm
  | afterEq t n =>
    simp only [TagMode.step] at h
    split_ifs at h
    all_goals
      cases h
      first | exact hm | exact Or.inl hm
  | value t n q v =>
    simp only [TagMode.step] at h
    split_ifs at h
    · cases h
      exact Tag.has_add.2 hm
    · cases h
      exact hm.imp_right fun hx => List.mem_append_left _ hx
  | afterValue t => exact Tag.delim_has hm h

theorem State.has_iff_of_root? {x : Char} {σ : State} {t : Tag} (h : σ.root? = some t) :
    σ.Has x ↔ t.Has x := by
  cases σ with
  | prolog => cases h
  | rootTag m => cases h
  | inside root above m =>
    cases h
    rfl
  | done root =>
    cases h
    rfl

theorem State.step_has {x : Char} {σ σ' : State} {c : Char} (hσ : σ.Has x)
    (h : σ.step c = some σ') : σ'.Has x := by
  cases σ with
  | prolog => exact hσ.elim
  | rootTag m =>
    obtain ⟨r, hr, rfl⟩ := Option.map_eq_some_iff.1 h
    have hx := TagMode.step_has hσ hr
    cases r with
    | more m' => exact hx
    | opened t => exact hx
    | closed t => exact hx
  | inside root above m =>
    exact (State.has_iff_of_root? (State.step_root? (t := root.tag) rfl h)).2 hσ
  | done root =>
    exact (State.has_iff_of_root? (State.step_root? (t := root.tag) rfl h)).2 hσ

theorem run_has {x : Char} {σ σ' : State} {cs : List Char} (hσ : σ.Has x)
    (h : run State.step σ cs = some σ') : σ'.Has x :=
  (Always.of_step (fun _ _ _ => State.step_has) cs hσ).last h

/-! ## The end of the root's tag -/

theorem TagMode.value_step_gt (t : Tag) (n : List Char) (q : Quote) (v : List Char) :
    (TagMode.value t n q v).step '>' = some (.more (.value t n q (v ++ ['>']))) := by
  cases q <;> rfl

theorem TagMode.step_gt_more {m m' : TagMode} (h : m.step '>' = some (.more m')) :
    m'.Has '>' := by
  cases m with
  | value t n q v =>
    rw [value_step_gt] at h
    cases h
    exact Or.inr (List.mem_append_right _ (List.mem_singleton_self _))
  | _ => cases h

theorem TagMode.eq_slash_of_closed {m : TagMode} {t : Tag} (h : m.step '>' = some (.closed t)) :
    m = .slash t := by
  cases m with
  | slash t' =>
    cases h
    rfl
  | value t' n q v =>
    rw [value_step_gt] at h
    cases h
  | _ => cases h

/-- **Where the first `>` of a document stands**: unless it belongs to a value, it ends the root's
start tag, either as the tag of an element with content or as an empty-element tag. -/
theorem parse_first_gt {front back : List Char} {e : Element} (hfront : '>' ∉ front)
    (hvalues : ¬ e.tag.Has '>') (h : parse (front ++ '>' :: back) = some e) :
    ∃ m, run State.step .prolog front = some (.rootTag m) ∧
      ((m.step '>' = some (.opened e.tag) ∧
          run State.step (.inside ⟨e.tag, []⟩ [] (.text [])) back = some (.done e)) ∨
        (m = .slash e.tag ∧ run State.step (.done ⟨e.tag, []⟩) back = some (.done e))) := by
  rw [parse_eq_some, run_append] at h
  obtain ⟨σ, hσ, h⟩ := Option.bind_eq_some_iff.1 h
  obtain ⟨σ', hσ', h⟩ := Option.bind_eq_some_iff.1 h
  cases σ with
  | prolog => cases hσ'
  | inside root above m => exact (run_opening hfront hσ).elim
  | done root => exact (run_opening hfront hσ).elim
  | rootTag m =>
    refine ⟨m, hσ, ?_⟩
    obtain ⟨r, hr, rfl⟩ := Option.map_eq_some_iff.1 hσ'
    cases r with
    | more m' => exact (hvalues (run_has (σ := .rootTag m') (TagMode.step_gt_more hr) h)).elim
    | opened t =>
      cases run_root? (t := t) rfl h
      exact Or.inl ⟨hr, h⟩
    | closed t =>
      cases run_root? (t := t) rfl h
      exact Or.inr ⟨TagMode.eq_slash_of_closed hr, h⟩

/-! ## Reading an attribute -/

/-- An attribute that can be written with double quotes. -/
structure Attr.Ok (a : Attr) : Prop where
  name : isName a.name
  value : isValue a.value
  no_quote : '"' ∉ a.value
  no_lt : '<' ∉ a.value

def Attr.text (a : Attr) : List Char := ' ' :: (a.name ++ '=' :: '"' :: (a.value ++ ['"']))

/-- Where a `>` would end the tag, a space is read instead. -/
theorem TagMode.step_space {m : TagMode} {t : Tag} (h : m.step '>' = some (.opened t)) :
    m.step ' ' = some (.more (.gap t)) := by
  cases m with
  | name n =>
    cases h
    rfl
  | gap t' =>
    cases h
    rfl
  | afterValue t' =>
    cases h
    rfl
  | value t' n q v =>
    rw [value_step_gt] at h
    cases h
  | _ => cases h

theorem run_attrName {t : Tag} {n cs : List Char} (hcs : ∀ c ∈ cs, isNameChar c) :
    run State.step (.rootTag (.attrName t n)) cs = some (.rootTag (.attrName t (n ++ cs))) := by
  induction cs generalizing n with
  | nil => rw [List.append_nil]; rfl
  | cons c cs ih =>
    have hstep : State.step (.rootTag (.attrName t n)) c =
        some (.rootTag (.attrName t (n ++ [c]))) := by
      simp [State.step, TagMode.step, hcs c List.mem_cons_self]
    rw [run_cons, hstep, Option.bind_some, ih fun d hd => hcs d (List.mem_cons_of_mem _ hd),
      List.append_assoc, List.singleton_append]

theorem run_value {t : Tag} {n v cs : List Char} (hquote : '"' ∉ cs) (hlt : '<' ∉ cs) :
    run State.step (.rootTag (.value t n .double v)) cs =
      some (.rootTag (.value t n .double (v ++ cs))) := by
  induction cs generalizing v with
  | nil => rw [List.append_nil]; rfl
  | cons c cs ih =>
    rw [List.mem_cons, not_or] at hquote hlt
    have hstep : State.step (.rootTag (.value t n .double v)) c =
        some (.rootTag (.value t n .double (v ++ [c]))) := by
      simp [State.step, TagMode.step, Quote.char, Ne.symm hquote.1, Ne.symm hlt.1]
    rw [run_cons, hstep, Option.bind_some, ih hquote.2 hlt.2, List.append_assoc,
      List.singleton_append]

/-- An attribute is read where the tag could have ended. -/
theorem run_attr {m : TagMode} {t : Tag} {a : Attr} (hm : m.step '>' = some (.opened t))
    (ha : a.Ok) (hnew : ∀ b ∈ t.attrs, b.name ≠ a.name) :
    run State.step (.rootTag m) a.text = some (.rootTag (.afterValue (t.add a))) := by
  obtain ⟨c, cs, hname⟩ : ∃ c cs, a.name = c :: cs :=
    List.exists_cons_of_ne_nil fun h => by simpa [h, isName] using ha.name
  have hok : isNameStart c ∧ ∀ d ∈ cs, isNameChar d := by
    simpa [hname, isName] using ha.name
  have hspace : State.step (.rootTag m) ' ' = some (.rootTag (.gap t)) := by
    rw [State.step, TagMode.step_space hm]
    rfl
  have hfirst : State.step (.rootTag (.gap t)) c = some (.rootTag (.attrName t [c])) := by
    simp [State.step, TagMode.step, hok.1]
  have hclose : State.step (.rootTag (.value t a.name .double a.value)) '"' =
      some (.rootTag (.afterValue (t.add a))) := by
    have hvalue : isValue a.value ∧ ∀ b ∈ t.attrs, b.name ≠ a.name := ⟨ha.value, hnew⟩
    simp only [State.step, TagMode.step, Quote.char, if_true, if_pos hvalue]
    rfl
  calc run State.step (.rootTag m) a.text
      = run State.step (.rootTag (.gap t)) (c :: (cs ++ '=' :: '"' :: (a.value ++ ['"']))) := by
        rw [Attr.text, hname, run_cons, hspace]
        rfl
    _ = run State.step (.rootTag (.attrName t a.name)) ('=' :: '"' :: (a.value ++ ['"'])) := by
        rw [run_cons, hfirst, Option.bind_some, run_append, run_attrName hok.2, hname]
        rfl
    _ = run State.step (.rootTag (.value t a.name .double [])) (a.value ++ ['"']) := rfl
    _ = some (.rootTag (.afterValue (t.add a))) := by
        rw [run_append, run_value ha.no_quote ha.no_lt, Option.bind_some, List.nil_append,
          run_cons, hclose]
        rfl

/-! ## Content does not depend on the root's attributes -/

/-- One more attribute at the root. -/
def State.addAttr (a : Attr) : State → State
  | .prolog => .prolog
  | .rootTag m => .rootTag m
  | .inside root above m => .inside (root.addAttr a) above m
  | .done root => .done (root.addAttr a)

theorem addChildren_addAttr (a : Attr) (root : Element) (above : List Element) (xs : List Node)
    (m : Mode) : addChildren (root.addAttr a) above xs m =
      (addChildren root above xs m).addAttr a := by
  cases above <;> rfl

theorem childTag_addAttr (a : Attr) (root : Element) (above : List Element) (r : TagStep) :
    childTag (root.addAttr a) above r = (childTag root above r).addAttr a := by
  cases r with
  | more m => rfl
  | opened t => rfl
  | closed t => exact addChildren_addAttr ..

theorem close_addAttr (a : Attr) (root : Element) (above : List Element) (n : List Char) :
    close (root.addAttr a) above n = (close root above n).map (State.addAttr a) := by
  cases above with
  | nil =>
    have hname : (root.addAttr a).tag.name = root.tag.name := rfl
    simp only [close, hname]
    split_ifs <;> rfl
  | cons e es =>
    simp only [close, addChildren_addAttr]
    split_ifs <;> rfl

theorem Mode.step_addAttr (a : Attr) (root : Element) (above : List Element) (m : Mode)
    (c : Char) : m.step (root.addAttr a) above c =
      (m.step root above c).map (State.addAttr a) := by
  have htag : ∀ m' : TagMode, (m'.step c).map (childTag (root.addAttr a) above) =
      ((m'.step c).map (childTag root above)).map (State.addAttr a) := by
    intro m'
    rw [Option.map_map]
    congr 1
    funext r
    exact childTag_addAttr a root above r
  cases m with
  | text s =>
    simp only [Mode.step, addChildren_addAttr]
    split_ifs <;> rfl
  | lt =>
    simp only [Mode.step, htag]
    split_ifs <;> rfl
  | tag m' => exact htag m'
  | endName n | endGap n =>
    simp only [Mode.step, close_addAttr]
    split_ifs <;> rfl

theorem State.step_addAttr (a : Attr) {σ : State} {t : Tag} (c : Char) (hσ : σ.root? = some t) :
    (σ.addAttr a).step c = (σ.step c).map (State.addAttr a) := by
  cases σ with
  | prolog => cases hσ
  | rootTag m => cases hσ
  | inside root above m => exact Mode.step_addAttr a root above m c
  | done root =>
    simp only [State.step, State.addAttr]
    split_ifs <;> rfl

theorem run_addAttr (a : Attr) {σ : State} {t : Tag} (cs : List Char) (hσ : σ.root? = some t) :
    run State.step (σ.addAttr a) cs = (run State.step σ cs).map (State.addAttr a) := by
  induction cs generalizing σ with
  | nil => rfl
  | cons c cs ih =>
    rw [run_cons, run_cons, State.step_addAttr a c hσ]
    cases h : σ.step c with
    | none => rfl
    | some σ' => exact ih (State.step_root? hσ h)

/-! ## Splicing an attribute in -/

/-- The root is written as an empty-element tag: its only `>` is the last character. -/
def SelfClosing (s : List Char) : Prop := ∃ front, s = front ++ ['/', '>'] ∧ '>' ∉ front

theorem parse_splice {front back : List Char} {e : Element} {a : Attr} {m : TagMode}
    (hfront : run State.step .prolog front = some (.rootTag m))
    (hm : m.step '>' = some (.opened e.tag))
    (hback : run State.step (.inside ⟨e.tag, []⟩ [] (.text [])) back = some (.done e))
    (ha : a.Ok) (hnew : ∀ b ∈ e.tag.attrs, b.name ≠ a.name) :
    parse (front ++ a.text ++ '>' :: back) = some (e.addAttr a) := by
  have hgt : State.step (.rootTag (.afterValue (e.tag.add a))) '>' =
      some (State.addAttr a (.inside ⟨e.tag, []⟩ [] (.text []))) := rfl
  rw [parse_eq_some, run_append, run_append, hfront, Option.bind_some, run_attr hm ha hnew,
    Option.bind_some, run_cons, hgt, Option.bind_some, run_addAttr a back rfl, hback]
  rfl

/-- Nothing may stand between the `/` and the `>` of an empty-element tag. -/
theorem parse_splice_of_closed {front back : List Char} {t : Tag} (a : Attr)
    (hfront : run State.step .prolog front = some (.rootTag (.slash t))) :
    parse (front ++ a.text ++ '>' :: back) = none := by
  have hrun : run State.step .prolog (front ++ a.text ++ '>' :: back) = none := by
    rw [List.append_assoc, run_append, hfront]
    rfl
  rw [parse, hrun]

theorem run_done {root : Element} {cs : List Char} {σ : State}
    (h : run State.step (.done root) cs = some σ) : σ = .done root := by
  have hstep : ∀ σ c σ', σ = State.done root → σ.step c = some σ' → σ' = .done root := by
    rintro _ c σ' rfl h
    simp only [State.step] at h
    split_ifs at h
    cases h
    rfl
  exact (Always.of_step hstep cs rfl).last h

theorem gt_mem_of_parse {s : List Char} {e : Element} (h : parse s = some e) : '>' ∈ s := by
  by_contra hgt
  exact run_opening hgt (parse_eq_some.1 h)

theorem append_gt_inj {xs ys as bs : List Char} (hxs : '>' ∉ xs) (hys : '>' ∉ ys)
    (h : xs ++ '>' :: as = ys ++ '>' :: bs) : xs = ys ∧ as = bs := by
  induction xs generalizing ys with
  | nil =>
    cases ys with
    | nil => exact ⟨rfl, List.tail_eq_of_cons_eq h⟩
    | cons y ys => exact absurd (List.head_eq_of_cons_eq h ▸ List.mem_cons_self) hys
  | cons x xs ih =>
    rw [List.mem_cons, not_or] at hxs
    cases ys with
    | nil => exact absurd (List.head_eq_of_cons_eq h).symm hxs.1
    | cons y ys =>
      rw [List.mem_cons, not_or] at hys
      obtain ⟨rfl, hrest⟩ := List.cons.inj h
      obtain ⟨rfl, hback⟩ := ih hxs.2 hys.2 hrest
      exact ⟨rfl, hback⟩

/-- **An attribute spliced in before the first `>` becomes an attribute of the root exactly when
the root has content**, in documents that write an empty root as an empty-element tag. -/
theorem parse_splice_iff {front back : List Char} {e : Element} {a : Attr} (hfront : '>' ∉ front)
    (h : parse (front ++ '>' :: back) = some e) (hvalues : ¬ e.tag.Has '>') (ha : a.Ok)
    (hnew : ∀ b ∈ e.tag.attrs, b.name ≠ a.name)
    (hempty : e.children = [] → SelfClosing (front ++ '>' :: back)) :
    parse (front ++ a.text ++ '>' :: back) = some (e.addAttr a) ↔ e.children ≠ [] := by
  obtain ⟨m, hrun, ⟨hm, hback⟩ | ⟨rfl, hback⟩⟩ := parse_first_gt hfront hvalues h
  · refine iff_of_true (parse_splice hrun hm hback ha hnew) fun hnil => ?_
    -- Behind the only `>` nothing is left to close the root.
    obtain ⟨front', hs, hfront'⟩ := hempty hnil
    have hslash : '>' ∉ front' ++ ['/'] := by simp [hfront']
    have hlast : front = front' ++ ['/'] ∧ back = [] :=
      append_gt_inj hfront hslash (by rw [hs, List.append_assoc]; rfl)
    rw [hlast.2] at hback
    cases hback
  · refine iff_of_false ?_ fun hchildren => hchildren ?_
    · rw [parse_splice_of_closed a hrun]
      exact Option.some_ne_none _ |>.symm
    · exact congrArg Element.children (State.done.inj (run_done hback))

end Xml
