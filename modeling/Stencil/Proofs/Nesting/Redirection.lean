import Stencil.Proofs.Nesting.Plain
import Stencil.Proofs.Nesting.Playing

/-!
# Where writes go

An accumulator sends each write to the innermost place that was entered and not yet left, and it
finds that place by looking at its frames. What this comes to can be told without frames. A
`Writing` is a program that writes, enters segments, captures and may fail anywhere, so that what is
around the failure goes on or fails in turn. Its **meaning** (`Writing.meaning`) is read off from
how it is nested: each write belongs to the innermost scope around it, and a capture takes its own
writes out of the list of **deeds** that it leaves to what is around it.

The run of a writing has this meaning (`Writing.run_gains`). One lemma for each thing that a writing
can do carries the proof, since what an accumulator `Gains` by several deeds it gains by one after
the other; entering and leaving change the frames, but not the frames below them.

Reading pieces opens places in the same manner, but its places may be open when it fails. So what a
step of the reading keeps is told of the accumulator that is left when all open places are left
(`Tag.State.unwind`).
-/

namespace Stencil

open Tag (Segment)

/-! ### Deeds -/

/-- Where an instruction is written to. -/
inductive Place where
  | main
  | segment (s : Segment)
  | capture
  deriving DecidableEq

/-- Something that is done to an accumulator. -/
inductive Deed where
  | write (p : Place) (i : Instr)
  | enter (s : Segment)
  | setParams (name : String) (params : Params)

namespace Deed

/-- The instruction that is written to a place. -/
def written? (p : Place) : Deed → Option Instr
  | write p' i => if p' = p then some i else none
  | _ => none

/-- The parameters that a macro is given. -/
def params? (name : String) : Deed → Option Params
  | setParams name' params => if name' = name then some params else none
  | _ => none

/-- Whether a segment is there afterwards in any case. -/
def makes (s : Segment) : Deed → Bool
  | write p _ => p = .segment s
  | enter s' => s' = s
  | setParams _ _ => false

/-- Whether it is a write into a capture. -/
def isCaptured : Deed → Bool
  | write p _ => p = .capture
  | _ => false

end Deed

/-- What is written to a place, in order. -/
def writtenTo (p : Place) (ds : List Deed) : List Instr :=
  ds.filterMap (Deed.written? p)

/-- The parameters that a macro has been given last. -/
def lastParams? (name : String) (ds : List Deed) : Option Params :=
  (ds.filterMap (Deed.params? name)).getLast?

/-- The deeds that are left if those writes are taken out that go into a capture. -/
def withoutCaptured (ds : List Deed) : List Deed :=
  ds.filter fun d => !d.isCaptured

section Deeds

variable {p : Place} {s : Segment} {ds es : List Deed}

theorem writtenTo_append : writtenTo p (ds ++ es) = writtenTo p ds ++ writtenTo p es :=
  List.filterMap_append

@[simp] theorem writtenTo_enter : writtenTo p (.enter s :: ds) = writtenTo p ds := rfl

@[simp] theorem writtenTo_setParams (name : String) (params : Params) :
    writtenTo p (.setParams name params :: ds) = writtenTo p ds := rfl

theorem writtenTo_write_of_ne {p' : Place} (h : p' ≠ p) (i : Instr) :
    writtenTo p (.write p' i :: ds) = writtenTo p ds :=
  List.filterMap_cons_none (if_neg h)

theorem lastParams?_append (name : String) :
    lastParams? name (ds ++ es) = (lastParams? name es).or (lastParams? name ds) := by
  rw [lastParams?, List.filterMap_append, List.getLast?_append]
  rfl

theorem written?_of_not_makes {d : Deed} (h : d.makes s = false) :
    d.written? (.segment s) = none := by
  cases d with
  | write p i => exact if_neg (of_decide_eq_false h)
  | enter | setParams => rfl

/-- What is not made is not written to. -/
theorem writtenTo_of_not_made (h : ds.any (Deed.makes s) = false) :
    writtenTo (.segment s) ds = [] := by
  rw [writtenTo, List.filterMap_eq_nil_iff]
  intro d hd
  exact written?_of_not_makes (by simpa using List.any_eq_false.mp h d hd)

theorem writtenTo_withoutCaptured (hp : p ≠ .capture) :
    writtenTo p (withoutCaptured ds) = writtenTo p ds := by
  rw [writtenTo, withoutCaptured, List.filterMap_filter]
  refine congrFun (congrArg _ (funext fun d => ?_)) ds
  cases d with
  | write p' i =>
    by_cases hp' : p' = .capture
    · subst hp'
      simp [Deed.isCaptured, Deed.written?, Ne.symm hp]
    · simp [Deed.isCaptured, hp']
  | enter | setParams => simp [Deed.isCaptured]

theorem writtenTo_capture_withoutCaptured : writtenTo .capture (withoutCaptured ds) = [] := by
  rw [writtenTo, withoutCaptured, List.filterMap_eq_nil_iff]
  intro d hd
  have hcaptured := (List.mem_filter.mp hd).2
  cases d with
  | write p i => exact if_neg (by simpa [Deed.isCaptured] using hcaptured)
  | enter | setParams => rfl

theorem any_makes_withoutCaptured :
    (withoutCaptured ds).any (Deed.makes s) = ds.any (Deed.makes s) := by
  rw [withoutCaptured, List.any_filter]
  refine congrArg (ds.any ·) (funext fun d => ?_)
  cases d with
  | write p i => cases p <;> simp [Deed.isCaptured, Deed.makes]
  | enter | setParams => simp [Deed.isCaptured]

theorem lastParams?_withoutCaptured (name : String) :
    lastParams? name (withoutCaptured ds) = lastParams? name ds := by
  rw [lastParams?, withoutCaptured, List.filterMap_filter]
  refine congrArg _ (congrFun (congrArg _ (funext fun d => ?_)) ds)
  cases d with
  | write => simp [Deed.params?]
  | enter | setParams => simp [Deed.isCaptured]

end Deeds

/-! ### What deeds do -/

namespace Accumulator

/-- Where a write goes now. -/
def place (a : Accumulator) : Place :=
  match a.frames with
  | [] => .main
  | .block name :: _ => .segment (.block name)
  | .macroBody name :: _ => .segment (.macroBody name)
  | .capture _ :: _ => .capture

/-- Enters a segment. -/
def enterSegment (s : Segment) (a : Accumulator) : Accumulator :=
  match s with
  | .block name => a.enterBlock name
  | .macroBody name => a.enterMacro name

/-- Does something inside a segment. -/
def withSegment {ε α : Type} : Segment → Writer ε α → Writer ε α
  | .block name => withBlock name
  | .macroBody name => withMacro name

theorem withSegment_apply {ε α : Type} (s : Segment) (body : Writer ε α) (a : Accumulator) :
    withSegment s body a =
      ((body (a.enterSegment s)).1, (body (a.enterSegment s)).2.leave) := by
  cases s <;> rfl

/-- What an accumulator has become by some deeds. Each segment has at its end what was written to
it. The innermost place is the same as before, and so are all frames, but for a capture that has
gained what was written into it. -/
structure Gains (a : Accumulator) (ds : List Deed) (a' : Accumulator) : Prop where
  place : a'.place = a.place
  outer : a'.frames.tail = a.frames.tail
  captured : a'.captured = a.captured ++ writtenTo .capture ds
  main : a'.main = a.main ++ writtenTo .main ds
  segment (s : Segment) : a'.segment? s =
    if ds.any (Deed.makes s) then some ((a.segment? s).getD [] ++ writtenTo (.segment s) ds)
    else a.segment? s
  params (name : String) :
    Table.find? name a'.params = (lastParams? name ds).or (Table.find? name a.params)

namespace Gains

variable {a a' a'' : Accumulator} {ds es : List Deed}

theorem refl (a : Accumulator) : a.Gains [] a := by
  constructor <;> simp [writtenTo, lastParams?]

theorem trans (h : a.Gains ds a') (h' : a'.Gains es a'') : a.Gains (ds ++ es) a'' where
  place := h'.place.trans h.place
  outer := h'.outer.trans h.outer
  captured := by rw [h'.captured, h.captured, writtenTo_append, List.append_assoc]
  main := by rw [h'.main, h.main, writtenTo_append, List.append_assoc]
  segment s := by
    rw [h'.segment, h.segment, writtenTo_append, List.any_append]
    cases hds : ds.any (Deed.makes s) <;> cases hes : es.any (Deed.makes s) <;>
      simp [writtenTo_of_not_made, hds, hes]
  params name := by rw [h'.params, h.params, lastParams?_append, Option.or_assoc]

end Gains

theorem segment?_write (a : Accumulator) (i : Instr) (s : Segment) :
    (a.write i).segment? s =
      if a.place = .segment s then some ((a.segment? s).getD [] ++ [i]) else a.segment? s := by
  obtain ⟨main, blocks, macros, params, frames⟩ := a
  rcases frames with _ | ⟨name | name | written, outer⟩ <;> cases s <;>
    simp [write, place, segment?, find?_append, eq_comm]

theorem segment?_enterSegment (a : Accumulator) (s s' : Segment) :
    (a.enterSegment s).segment? s' =
      if s = s' then some ((a.segment? s').getD []) else a.segment? s' := by
  cases s <;> cases s' <;>
    simp [enterSegment, enterBlock, enterMacro, segment?, find?_append, eq_comm]

namespace Gains

variable {a a' : Accumulator} {ds : List Deed}

/-- A write goes to the innermost place. -/
theorem write (a : Accumulator) (i : Instr) : a.Gains [.write a.place i] (a.write i) := by
  have hsegment : ∀ s, (a.write i).segment? s =
      if [Deed.write a.place i].any (Deed.makes s) then
        some ((a.segment? s).getD [] ++ writtenTo (.segment s) [.write a.place i])
      else a.segment? s := by
    intro s
    rw [segment?_write]
    by_cases h : a.place = .segment s <;> simp [writtenTo, Deed.written?, Deed.makes, h]
  obtain ⟨main, blocks, macros, params, frames⟩ := a
  constructor
  case segment => exact hsegment
  all_goals
    rcases frames with _ | ⟨name | name | written, outer⟩ <;>
      simp [Accumulator.write, Accumulator.place, Accumulator.captured, writtenTo, Deed.written?,
        lastParams?, Deed.params?]

/-- What leaves the frames alone leaves the innermost place alone. -/
theorem of_frames (hframes : a'.frames = a.frames) (hcaptured : writtenTo .capture ds = [])
    (hmain : a'.main = a.main ++ writtenTo .main ds)
    (hsegment : ∀ s, a'.segment? s =
      if ds.any (Deed.makes s) then some ((a.segment? s).getD [] ++ writtenTo (.segment s) ds)
      else a.segment? s)
    (hparams : ∀ name,
      Table.find? name a'.params = (lastParams? name ds).or (Table.find? name a.params)) :
    a.Gains ds a' where
  place := by rw [Accumulator.place, hframes, Accumulator.place]
  outer := by rw [hframes]
  captured := by
    rw [hcaptured, List.append_nil, Accumulator.captured, hframes, Accumulator.captured]
  main := hmain
  segment := hsegment
  params := hparams

theorem setParams (a : Accumulator) (name : String) (params : Params) :
    a.Gains [.setParams name params] (a.setParams name params) := by
  refine .of_frames rfl rfl (List.append_nil _).symm (fun s => by cases s <;> rfl) fun name' => ?_
  by_cases h : name' = name
  · subst h
    simp [Accumulator.setParams, lastParams?, Deed.params?, Table.find?_insert]
  · simp [Accumulator.setParams, lastParams?, Deed.params?, Table.find?_insert, h, Ne.symm h]

/-- What is done inside a segment is done to what is around it, where nothing of it is
captured. -/
theorem inSegment {s : Segment} (h : (a.enterSegment s).Gains ds a')
    (hds : writtenTo .capture ds = []) : a.Gains (.enter s :: ds) a'.leave := by
  refine .of_frames ?_ hds ?_ (fun s' => ?_) fun name => ?_
  · cases s <;> exact h.outer
  · cases s <;> exact h.main
  · refine (h.segment s').trans ?_
    rw [segment?_enterSegment]
    by_cases hs : s = s' <;> cases hmakes : ds.any (Deed.makes s') <;>
      simp [Deed.makes, hs, hmakes, writtenTo_of_not_made]
  · cases s <;> exact h.params name

/-- What is done inside a capture is done to what is around it, apart from what is captured. -/
theorem inCapture (h : a.enterCapture.Gains ds a') :
    a.Gains (withoutCaptured ds) a'.leave := by
  refine .of_frames h.outer writtenTo_capture_withoutCaptured ?_ (fun s => ?_) fun name => ?_
  · rw [writtenTo_withoutCaptured (by simp)]
    exact h.main
  · rw [writtenTo_withoutCaptured (by simp), any_makes_withoutCaptured]
    exact h.segment s
  · rw [lastParams?_withoutCaptured]
    exact h.params name

/-- A capture that was empty at first has what was written into it. -/
theorem captured_enterCapture (h : a.enterCapture.Gains ds a') :
    a'.captured = writtenTo .capture ds := h.captured

end Gains

end Accumulator

/-! ### Writings -/

/-- A program that writes to an accumulator, where `ε` are the faults that it may end with. What
follows a part of it, be that around a failure or not, is told by how the part ended. -/
inductive Writing (ε : Type) : Type → Type 1 where
  | done {α : Type} (r : Except ε α) : Writing ε α
  | write {α : Type} (i : Instr) (next : Writing ε α) : Writing ε α
  | setParams {α : Type} (name : String) (params : Params) (next : Writing ε α) : Writing ε α
  | inSegment {α β : Type} (s : Segment) (body : Writing ε β) (next : Except ε β → Writing ε α) :
    Writing ε α
  | inCapture {α β : Type} (body : Writing ε β) (next : Except ε (List Instr × β) → Writing ε α) :
    Writing ε α

namespace Writing

variable {ε : Type}

/-- Does what a writing says. -/
def run {α : Type} : Writing ε α → Accumulator → Except ε α × Accumulator
  | done r, a => (r, a)
  | write i next, a => next.run (a.write i)
  | setParams name params next, a => next.run (a.setParams name params)
  | inSegment s body next, a =>
    let (r, a) := Accumulator.withSegment s body.run a
    (next r).run a
  | inCapture body next, a =>
    let (r, a) := Accumulator.withCapture body.run a
    (next r).run a

theorem run_inSegment {α β : Type} (s : Segment) (body : Writing ε β)
    (next : Except ε β → Writing ε α) (a : Accumulator) :
    (inSegment s body next).run a =
      (next (body.run (a.enterSegment s)).1).run (body.run (a.enterSegment s)).2.leave := by
  rw [run, Accumulator.withSegment_apply]

theorem run_inCapture {α β : Type} (body : Writing ε β)
    (next : Except ε (List Instr × β) → Writing ε α) (a : Accumulator) :
    (inCapture body next).run a =
      (next ((body.run a.enterCapture).1.map ((body.run a.enterCapture).2.captured, ·))).run
        (body.run a.enterCapture).2.leave :=
  rfl

/-- How a writing ends and what it does, told by how it is nested: `here` is the innermost scope
around it. -/
def meaning {α : Type} (here : Place) : Writing ε α → Except ε α × List Deed
  | done r => (r, [])
  | write i next =>
    let m := next.meaning here
    (m.1, .write here i :: m.2)
  | setParams name params next =>
    let m := next.meaning here
    (m.1, .setParams name params :: m.2)
  | inSegment s body next =>
    let b := body.meaning (.segment s)
    let m := (next b.1).meaning here
    (m.1, .enter s :: b.2 ++ m.2)
  | inCapture body next =>
    let b := body.meaning .capture
    let m := (next (b.1.map (writtenTo .capture b.2, ·))).meaning here
    (m.1, withoutCaptured b.2 ++ m.2)

/-- Every capture takes out what is written into it. -/
theorem writtenTo_capture_meaning {α : Type} (p : Writing ε α) {here : Place}
    (h : here ≠ .capture) : writtenTo .capture (p.meaning here).2 = [] := by
  induction p generalizing here with
  | done => rfl
  | write i next ih => exact (writtenTo_write_of_ne h i).trans (ih h)
  | setParams name params next ih => exact ih h
  | inSegment s body next hbody hnext =>
    rw [meaning, writtenTo_append, hnext _ h, List.append_nil]
    exact hbody (by simp)
  | inCapture body next hbody hnext =>
    rw [meaning, writtenTo_append, hnext _ h, writtenTo_capture_withoutCaptured]
    rfl

/-- **The run of a writing has its meaning**, whatever the accumulator is like. -/
theorem run_gains {α : Type} (p : Writing ε α) (a : Accumulator) :
    (p.run a).1 = (p.meaning a.place).1 ∧ a.Gains (p.meaning a.place).2 (p.run a).2 := by
  induction p generalizing a with
  | done r => exact ⟨rfl, .refl a⟩
  | write i next ih =>
    have hwrite := Accumulator.Gains.write a i
    obtain ⟨hresult, hgains⟩ := ih (a.write i)
    rw [hwrite.place] at hresult hgains
    exact ⟨hresult, hwrite.trans hgains⟩
  | setParams name params next ih =>
    have hset := Accumulator.Gains.setParams a name params
    obtain ⟨hresult, hgains⟩ := ih (a.setParams name params)
    rw [hset.place] at hresult hgains
    exact ⟨hresult, hset.trans hgains⟩
  | inSegment s body next hbody hnext =>
    have hplace : (a.enterSegment s).place = .segment s := by cases s <;> rfl
    obtain ⟨hresult, hgains⟩ := hbody (a.enterSegment s)
    rw [hplace] at hresult hgains
    have hinside := hgains.inSegment (body.writtenTo_capture_meaning (by simp))
    obtain ⟨hresult', hgains'⟩ := hnext (body.meaning (.segment s)).1
      (body.run (a.enterSegment s)).2.leave
    rw [hinside.place] at hresult' hgains'
    rw [run_inSegment, meaning, hresult]
    exact ⟨hresult', hinside.trans hgains'⟩
  | inCapture body next hbody hnext =>
    obtain ⟨hresult, hgains⟩ := hbody a.enterCapture
    have hinside := hgains.inCapture
    obtain ⟨hresult', hgains'⟩ := hnext
      ((body.meaning .capture).1.map (writtenTo .capture (body.meaning .capture).2, ·))
      (body.run a.enterCapture).2.leave
    rw [hinside.place] at hresult' hgains'
    rw [run_inCapture, meaning, hresult, hgains.captured_enterCapture]
    exact ⟨hresult', hinside.trans hgains'⟩

end Writing

/-! ### What stays -/

namespace Accumulator

/-- Whether an accumulator has only been appended to, and its innermost place is the same. -/
structure Extends (a a' : Accumulator) : Prop where
  place : a'.place = a.place
  outer : a'.frames.tail = a.frames.tail
  captured : a.captured <+: a'.captured
  main : a.main <+: a'.main
  segment {s : Segment} {is : List Instr} (h : a.segment? s = some is) :
    ∃ is', a'.segment? s = some is' ∧ is <+: is'

variable {a a' a'' : Accumulator}

/-- What is gained is appended. -/
theorem Gains.extends {ds : List Deed} (h : a.Gains ds a') : a.Extends a' where
  place := h.place
  outer := h.outer
  captured := ⟨_, h.captured.symm⟩
  main := ⟨_, h.main.symm⟩
  segment {s is} his := by
    rw [h.segment, his]
    split
    · exact ⟨_, rfl, List.prefix_append _ _⟩
    · exact ⟨_, rfl, List.prefix_refl _⟩

namespace Extends

theorem refl (a : Accumulator) : a.Extends a := (Gains.refl a).extends

theorem trans (h : a.Extends a') (h' : a'.Extends a'') : a.Extends a'' where
  place := h'.place.trans h.place
  outer := h'.outer.trans h.outer
  captured := h.captured.trans h'.captured
  main := h.main.trans h'.main
  segment his := by
    obtain ⟨is', his', hprefix⟩ := h.segment his
    obtain ⟨is'', his'', hprefix'⟩ := h'.segment his'
    exact ⟨is'', his'', hprefix.trans hprefix'⟩

/-- What is left of the places below the innermost one is what they were. -/
theorem leaveAll (h : a.Extends a') (n : Nat) : (a.leaveAll n).Extends (a'.leaveAll n) := by
  cases n with
  | zero => exact h
  | succ n =>
    have hframes : (a'.leaveAll (n + 1)).frames = (a.leaveAll (n + 1)).frames := by
      rw [Accumulator.leaveAll, Accumulator.leaveAll, ← List.drop_tail, ← List.drop_tail, h.outer]
    exact {
      place := by rw [Accumulator.place, hframes, Accumulator.place]
      outer := by rw [hframes]
      captured :=
        ⟨[], by rw [List.append_nil, Accumulator.captured, Accumulator.captured, hframes]⟩
      main := h.main
      segment := fun {s is} his => by
        have hsame : ∀ (b : Accumulator), (b.leaveAll (n + 1)).segment? s = b.segment? s := by
          intro b
          cases s <;> rfl
        rw [hsame] at his ⊢
        exact h.segment his }

end Extends

/-- To enter a segment and to leave it at once makes it, and no more. -/
theorem gains_enterSegment_leave (a : Accumulator) (s : Segment) :
    a.Gains [.enter s] (a.enterSegment s).leave :=
  (Gains.refl (a.enterSegment s)).inSegment rfl

end Accumulator

namespace Tag

/-- Whether a step only appends, once all open places are left. -/
def Step.Keeps {α : Type} (x : Step α) : Prop :=
  ∀ s : State, s.unwind.Extends (x s).2.unwind

/-- A plain step only appends. -/
theorem Step.Plain.keeps {α : Type} {x : Step α} (h : Plain x) : Keeps x := by
  induction h with
  | pure a => exact fun s => .refl _
  | lift x => cases x <;> exact fun s => .refl _
  | @bind α β x f _ _ ih ih' =>
    intro s
    have hfirst := ih s
    rw [Step.bind_apply]
    generalize x s = out at hfirst ⊢
    obtain ⟨fault | a, s'⟩ := out
    · exact hfirst
    · exact hfirst.trans (ih' a s')
  | write i => exact fun s => (Accumulator.Gains.write s.acc i).extends.leaveAll _
  | openCapture tag => exact fun s => .refl _
  | openBlock name =>
    exact fun s => (s.acc.gains_enterSegment_leave (.block name)).extends.leaveAll _
  | openMacro name =>
    exact fun s => (s.acc.gains_enterSegment_leave (.macroBody name)).extends.leaveAll _
  | setParams name params =>
    exact fun s => (Accumulator.Gains.setParams s.acc name params).extends.leaveAll _
  | valueBlock name args =>
    intro s
    cases Expr.parse args with
    | error fault => exact (s.acc.gains_enterSegment_leave (.block name)).extends.leaveAll _
    | ok e =>
      have hwrite := Accumulator.Gains.write (s.acc.enterSegment (.block name)) (.output e)
      exact (hwrite.inSegment rfl).extends.leaveAll _

/-- The end of a tag only appends, once its place is left like the others. -/
theorem extends_closeTag (tag : OpenTag) (term : Terminator) (acc : Accumulator)
    (o : List OpenTag) :
    (State.unwind ⟨acc, tag :: o⟩).Extends (closeTag tag term ⟨acc, tag :: o⟩).2.unwind := by
  obtain ⟨f, hclose, hplain⟩ := closeTag_eq_leave_bind tag term
  have hunwind : State.unwind ⟨acc.leave, o⟩ = State.unwind ⟨acc, tag :: o⟩ := by
    simp [State.unwind, Accumulator.leaveAll, Accumulator.leave]
  rw [hclose, ← hunwind]
  exact (hplain acc.captured).keeps ⟨acc.leave, o⟩

/-- The reading of a piece only appends. -/
theorem keeps_readPiece (tags : TagTable) (p : Piece) : Step.Keeps (readPiece tags p) := by
  obtain ⟨term, -, -, hread⟩ | ⟨x, hplain, hread⟩ := readPiece_terminator_or_plain tags p
  · rw [hread]
    rintro ⟨acc, _ | ⟨tag, o⟩⟩
    · exact .refl _
    · rw [meetTerminator_cons]
      cases acceptTerminator tag.opener tag.expected (some term) with
      | error fault => exact .refl _
      | ok term => exact extends_closeTag tag term acc o
  · rw [hread]
    exact (Step.Plain.bind hplain fun _ => .pure _).keeps

theorem extends_readFrom (tags : TagTable) (s : State) (ps : List Piece) :
    s.unwind.Extends (readFrom tags s ps).acc := by
  induction ps generalizing s with
  | nil =>
    obtain ⟨acc, _ | ⟨tag, o⟩⟩ := s <;> exact .refl _
  | cons p ps ih =>
    have hpiece := keeps_readPiece tags p s
    rw [readFrom]
    rcases hread : readPiece tags p s with ⟨fault | _ | term, s'⟩ <;> rw [hread] at hpiece
    · exact hpiece
    · exact hpiece.trans (ih s')
    · exact hpiece

/-- A sequence leaves the active segment as it was, and only appends, however it ends. -/
theorem extends_readSequence (tags : TagTable) (acc : Accumulator) (ps : List Piece) :
    acc.Extends (readSequence tags acc ps).acc :=
  extends_readFrom tags ⟨acc, []⟩ ps

/-- So does a body, for what it wrote is taken out again. -/
theorem extends_readBody (tags : TagTable) (acc : Accumulator) (ps : List Piece)
    (opener : String) (expected : List String) :
    acc.Extends (readBody tags acc ps opener expected).acc := by
  have hbody := (extends_readSequence tags acc.enterCapture ps).leaveAll 1
  have hleave : ∀ a : Accumulator, a.leaveAll 1 = a.leave := by
    intro a
    rw [Accumulator.leaveAll, Accumulator.leave, List.drop_one]
  rw [hleave, hleave] at hbody
  exact hbody

end Tag

/-- **Writes go to the innermost scope around them.** A writing ends as its meaning says, whatever
fails on the way, and to each segment it adds what its meaning has written there, in order; the
innermost place is the same afterwards, and what was written before is still there. A capture that
succeeds gives what was written with it as the innermost scope, and one that fails loses just that.
The reading of pieces, successful or not, also leaves the innermost place as it was and only
appends. -/
theorem writes_follow_nesting :
    (∀ (ε α : Type) (p : Writing ε α) (a : Accumulator),
      (p.run a).1 = (p.meaning a.place).1 ∧ a.Gains (p.meaning a.place).2 (p.run a).2 ∧
        a.Extends (p.run a).2) ∧
    (∀ (ε α : Type) (body : Writing ε α) (a : Accumulator),
      let b := body.meaning .capture
      (Accumulator.withCapture body.run a).1 = b.1.map (writtenTo .capture b.2, ·) ∧
        a.Gains (withoutCaptured b.2) (Accumulator.withCapture body.run a).2) ∧
    (∀ (tags : TagTable) (acc : Accumulator) (ps : List Piece) (opener : String)
        (expected : List String),
      acc.Extends (Tag.readSequence tags acc ps).acc ∧
      acc.Extends (Tag.readUntil tags acc ps opener expected).acc ∧
      acc.Extends (Tag.readBody tags acc ps opener expected).acc) := by
  refine ⟨fun ε α p a => ?_, fun ε α body a => ?_, fun tags acc ps opener expected => ?_⟩
  · obtain ⟨hresult, hgains⟩ := p.run_gains a
    exact ⟨hresult, hgains, hgains.extends⟩
  · obtain ⟨hresult, hgains⟩ := (Writing.inCapture body .done).run_gains a
    rw [Writing.meaning, Writing.meaning, List.append_nil] at hgains
    exact ⟨hresult, hgains⟩
  · have hsequence := Tag.extends_readSequence tags acc ps
    exact ⟨hsequence, hsequence, Tag.extends_readBody tags acc ps opener expected⟩

/-- A block that is written to twice, the second time from inside a capture that fails. What the
capture had is lost, and the block has both texts. -/
example :
    let p : Writing Unit Unit :=
      .inSegment (.block "b") (.write (.text "one") (.done (.ok ()))) fun _ =>
        .inCapture
          (.write (.text "lost") <| .inSegment (.block "b")
            (.write (.text "two") (.done (.error ()))) .done)
          fun (_ : Except Unit (List Instr × Unit)) => .write (.text "main") (.done (.ok ()))
    (p.run {}).2.main = [.text "main"] ∧ (p.run {}).2.blocks = [("b", [.text "one", .text "two"])] ∧
      (p.run {}).2.frames = [] :=
  ⟨rfl, rfl, rfl⟩

end Stencil
