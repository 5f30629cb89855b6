import ScanBounds.Proofs.Regex.Tokens
import ScanBounds.Regex.Reader

/-!
# Expressions of token sequences

The stack machine of the reader, seen from the bottom of its stack.  Without bars the whole pattern is one
sequence, to which tokens only ever add; so the tokens behind a beginning build the same parts whatever
the beginning was, as long as they do not start with a repetition mark, which would reach back
(`run_onto`).  The expression of a pattern is then its beginning, part by part, before the expression of
the rest (`join?_append`).
-/

namespace ScanBounds.Regex

/-! ## Expressions without regard to limits -/

/-- The expression of the tokens, however large it is. -/
def join? (ts : List Token) : Option Regex := do
  let m ← ts.foldlM Machine.step? Machine.start
  if m.outer.isEmpty then some m.level.close.regex else none

lemma join?_of_ofTokens? {ts : List Token} {r : Regex} (h : ofTokens? ts = some r) : join? ts = some r := by
  unfold ofTokens? at h
  obtain ⟨m, hm, h⟩ := Option.bind_eq_some_iff.1 h
  split_ifs at h with hlimits
  rw [Bool.and_eq_true] at hlimits
  simp only [join?, hm, Option.bind_eq_bind, Option.bind_some, hlimits.1, if_true]
  exact h

/-! ## Steps of the machine -/

/-- What a step can do. -/
lemma Machine.step?_cases {m m' : Machine} {t : Token} (h : m.step? t = some m') :
    (∃ r depth, t = .item r depth ∧ m' = ⟨m.level.push (Part.item r depth), m.outer⟩) ∨
    (t = .bar ∧
      m' = ⟨⟨m.level.captures, [], Part.sequence m.level.items :: m.level.alternatives⟩, m.outer⟩) ∨
    (∃ captures, t = .openGroup captures ∧ m' = ⟨⟨captures, [], []⟩, m.level :: m.outer⟩) ∨
    (∃ below outer, t = .closeGroup ∧ m.outer = below :: outer ∧
      m' = ⟨below.push (m.level.close.group m.level.captures), outer⟩) ∨
    (∃ least most p items, t = .repeated least most ∧ m.level.items = p :: items ∧
      m' = ⟨{ m.level with items := p.repeated least most :: items }, m.outer⟩) := by
  cases t with
  | item r depth =>
    cases h
    exact .inl ⟨r, depth, rfl, rfl⟩
  | bar =>
    cases h
    exact .inr (.inl ⟨rfl, rfl⟩)
  | openGroup captures =>
    cases h
    exact .inr (.inr (.inl ⟨captures, rfl, rfl⟩))
  | closeGroup =>
    rw [Machine.step?] at h
    split at h
    · cases h
    next below outer houter =>
      cases h
      exact .inr (.inr (.inr (.inl ⟨below, outer, rfl, houter, rfl⟩)))
  | repeated least most =>
    rw [Machine.step?] at h
    split at h
    · cases h
    next p items hitems =>
      cases h
      exact .inr (.inr (.inr (.inr ⟨least, most, p, items, rfl, hitems, rfl⟩)))

/-- What every step keeps, a run keeps. -/
lemma Machine.run_keeps {P : Machine → Prop} {ts : List Token}
    (hstep : ∀ t ∈ ts, ∀ m m', P m → Machine.step? m t = some m' → P m') {m m' : Machine} (hm : P m)
    (h : ts.foldlM Machine.step? m = some m') : P m' := by
  induction ts generalizing m with
  | nil =>
    cases h
    exact hm
  | cons t ts ih =>
    rw [List.foldlM_cons] at h
    obtain ⟨m₁, hfirst, hrun⟩ := Option.bind_eq_some_iff.1 h
    have hm₁ : P m₁ := hstep t List.mem_cons_self m m₁ hm hfirst
    exact ih (fun t ht => hstep t (List.mem_cons_of_mem _ ht)) hm₁ hrun

/-! ## Bounds of repetitions -/

def Part.InOrder (p : Part) : Prop := p.regex.BoundsInOrder

/-- All that has been read of a group has its repetition bounds in order. -/
def Level.InOrder (level : Level) : Prop :=
  (∀ p ∈ level.items, p.InOrder) ∧ ∀ p ∈ level.alternatives, p.InOrder

def Machine.InOrder (m : Machine) : Prop := m.level.InOrder ∧ ∀ level ∈ m.outer, level.InOrder

lemma Level.inOrder_push {level : Level} {p : Part} (h : level.InOrder) (hp : p.InOrder) :
    (level.push p).InOrder := by
  refine ⟨?_, h.2⟩
  intro q hq
  rcases List.mem_cons.1 hq with rfl | hq
  · exact hp
  · exact h.1 q hq

lemma Part.inOrder_sequence {items : List Part} (h : ∀ p ∈ items, p.InOrder) :
    (Part.sequence items).InOrder := by
  have hempty : Regex.empty.BoundsInOrder := trivial
  exact List.foldlRecOn items _ hempty fun _ hr p hp => ⟨h p hp, hr⟩

lemma Part.inOrder_alternatives {final : Part} {others : List Part} (hf : final.InOrder)
    (h : ∀ p ∈ others, p.InOrder) : (Part.alternatives final others).InOrder :=
  List.foldlRecOn others _ hf fun _ hr p hp => ⟨h p hp, hr⟩

lemma Level.inOrder_close {level : Level} (h : level.InOrder) : level.close.InOrder :=
  Part.inOrder_alternatives (Part.inOrder_sequence h.1) h.2

lemma Machine.inOrder_step {m m' : Machine} {t : Token} (ht : t.InOrder) (hm : m.InOrder)
    (h : m.step? t = some m') : m'.InOrder := by
  obtain ⟨r, depth, rfl, rfl⟩ | ⟨rfl, rfl⟩ | ⟨captures, rfl, rfl⟩ | ⟨below, outer, rfl, houter, rfl⟩ |
    ⟨least, most, p, items, rfl, hitems, rfl⟩ := Machine.step?_cases h
  · exact ⟨Level.inOrder_push hm.1 ht, hm.2⟩
  · refine ⟨⟨by simp, ?_⟩, hm.2⟩
    intro p hp
    rcases List.mem_cons.1 hp with rfl | hp
    · exact Part.inOrder_sequence hm.1.1
    · exact hm.1.2 p hp
  · refine ⟨⟨by simp, by simp⟩, ?_⟩
    intro level hlevel
    rcases List.mem_cons.1 hlevel with rfl | hlevel
    · exact hm.1
    · exact hm.2 level hlevel
  · have hlevels : ∀ level ∈ below :: outer, level.InOrder := houter ▸ hm.2
    have hgroup : m.level.close.InOrder := Level.inOrder_close hm.1
    refine ⟨Level.inOrder_push (hlevels below List.mem_cons_self) hgroup, ?_⟩
    exact fun level hlevel => hlevels level (List.mem_cons_of_mem _ hlevel)
  · have hparts : ∀ q ∈ p :: items, q.InOrder := hitems ▸ hm.1.1
    refine ⟨⟨?_, hm.1.2⟩, hm.2⟩
    intro q hq
    rcases List.mem_cons.1 hq with rfl | hq
    · have hp : p.InOrder := hparts p List.mem_cons_self
      exact ⟨hp, ht⟩
    · exact hparts q (List.mem_cons_of_mem _ hq)

/-- Tokens with their bounds in order make an expression with its bounds in order. -/
lemma join?_inOrder {ts : List Token} (hts : ∀ t ∈ ts, t.InOrder) {r : Regex} (h : join? ts = some r) :
    r.BoundsInOrder := by
  obtain ⟨m, hm, h⟩ := Option.bind_eq_some_iff.1 h
  split_ifs at h
  cases h
  have hstart : Machine.start.InOrder := ⟨⟨by simp [Machine.start], by simp [Machine.start]⟩, by
    simp [Machine.start]⟩
  have hrun : m.InOrder :=
    Machine.run_keeps (fun t ht _ _ hm => Machine.inOrder_step (hts t ht) hm) hstart hm
  exact Level.inOrder_close hrun.1

/-! ## The bottom of the stack -/

def Level.onto (base : List Part) (level : Level) : Level := { level with items := level.items ++ base }

/-- The machine with more parts at the bottom of its stack. -/
def Machine.onto (base : List Part) : Level → List Level → Machine
  | level, [] => ⟨level.onto base, []⟩
  | level, below :: outer =>
    let m := Machine.onto base below outer
    ⟨level, m.level :: m.outer⟩

/-- A repetition mark that comes next finds a part to apply to, or is an error with any base. -/
def Machine.Ready (m : Machine) : Prop := m.outer = [] → m.level.items ≠ []

def Token.IsMark : Token → Prop
  | .repeated _ _ => True
  | _ => False

lemma Machine.ready_of_step {m m' : Machine} {t : Token} (ht : t ≠ .bar) (h : m.step? t = some m') :
    m'.Ready := by
  obtain ⟨r, depth, rfl, rfl⟩ | ⟨rfl, rfl⟩ | ⟨captures, rfl, rfl⟩ | ⟨below, outer, rfl, houter, rfl⟩ |
    ⟨least, most, p, items, rfl, hitems, rfl⟩ := Machine.step?_cases h
  · simp [Machine.Ready, Level.push]
  · exact absurd rfl ht
  · simp [Machine.Ready]
  · simp [Machine.Ready, Level.push]
  · simp [Machine.Ready]

lemma Machine.step?_onto (base : List Part) {m : Machine} {t : Token} (ht : t ≠ .bar)
    (hm : t.IsMark → m.Ready) :
    (Machine.onto base m.level m.outer).step? t =
      (m.step? t).map fun m => Machine.onto base m.level m.outer := by
  obtain ⟨⟨captures, items, alternatives⟩, outer⟩ := m
  cases t with
  | item r depth => cases outer <;> rfl
  | bar => exact absurd rfl ht
  | openGroup captures => cases outer <;> rfl
  | closeGroup =>
    rcases outer with - | ⟨below, - | ⟨level, outer⟩⟩ <;> rfl
  | repeated least most =>
    cases items with
    | cons p items => cases outer <;> rfl
    | nil =>
      cases outer with
      | cons below outer => rfl
      | nil => exact absurd rfl (hm trivial rfl)

lemma run_onto_of_ready (base : List Part) {ts : List Token} (hts : .bar ∉ ts) {m : Machine}
    (hm : m.Ready) :
    ts.foldlM Machine.step? (Machine.onto base m.level m.outer) =
      (ts.foldlM Machine.step? m).map fun m => Machine.onto base m.level m.outer := by
  induction ts generalizing m with
  | nil => rfl
  | cons t ts ih =>
    simp only [List.mem_cons, not_or] at hts
    have ht : t ≠ .bar := Ne.symm hts.1
    rw [List.foldlM_cons, List.foldlM_cons, Machine.step?_onto base ht fun _ => hm]
    cases hstep : m.step? t with
    | none => rfl
    | some m₁ => exact ih hts.2 (Machine.ready_of_step ht hstep)

/-- Tokens that do not start with a repetition mark leave the bottom of the stack alone. -/
lemma run_onto (base : List Part) {ts : List Token} (hts : .bar ∉ ts)
    (hhead : ∀ t ∈ ts.head?, ¬t.IsMark) :
    ts.foldlM Machine.step? ⟨⟨false, base, []⟩, []⟩ =
      (ts.foldlM Machine.step? Machine.start).map fun m => Machine.onto base m.level m.outer := by
  cases ts with
  | nil => rfl
  | cons t ts =>
    simp only [List.mem_cons, not_or] at hts
    have ht : t ≠ .bar := Ne.symm hts.1
    have hmark : ¬t.IsMark := hhead t rfl
    rw [List.foldlM_cons, List.foldlM_cons]
    have hstep : Machine.step? ⟨⟨false, base, []⟩, []⟩ t =
        (Machine.start.step? t).map fun m => Machine.onto base m.level m.outer :=
      Machine.step?_onto base (m := Machine.start) ht fun h => absurd h hmark
    rw [hstep]
    cases hnext : Machine.start.step? t with
    | none => rfl
    | some m₁ => exact run_onto_of_ready base hts.2 (Machine.ready_of_step ht hnext)

/-! ## One sequence -/

/-- No group has an alternative yet. -/
def Machine.Single (m : Machine) : Prop :=
  m.level.alternatives = [] ∧ ∀ level ∈ m.outer, level.alternatives = []

lemma Machine.single_step {m m' : Machine} {t : Token} (ht : t ≠ .bar) (hm : m.Single)
    (h : m.step? t = some m') : m'.Single := by
  obtain ⟨r, depth, rfl, rfl⟩ | ⟨rfl, rfl⟩ | ⟨captures, rfl, rfl⟩ | ⟨below, outer, rfl, houter, rfl⟩ |
    ⟨least, most, p, items, rfl, hitems, rfl⟩ := Machine.step?_cases h
  · exact hm
  · exact absurd rfl ht
  · exact ⟨rfl, by simpa [Machine.Single] using hm⟩
  · have hlevels : ∀ level ∈ below :: outer, level.alternatives = [] := houter ▸ hm.2
    refine ⟨hlevels below List.mem_cons_self, ?_⟩
    exact fun level hlevel => hlevels level (List.mem_cons_of_mem _ hlevel)
  · exact hm

/-- The expressions one after the other, before another one. -/
def chain (parts : List Regex) (r : Regex) : Regex := parts.foldr .cat r

lemma close_onto {base : List Part} {m : Machine} (hm : m.Single) (houter : m.outer = []) :
    (Machine.onto base m.level m.outer).level.close.regex =
      chain (base.reverse.map Part.regex) m.level.close.regex := by
  obtain ⟨⟨captures, items, alternatives⟩, outer⟩ := m
  cases hm.1
  cases houter
  simp [Machine.onto, Level.onto, Level.close, Part.sequence, Part.alternatives, chain,
    List.foldl_append, List.foldl_map, List.foldr_reverse]

/-- **Sequences.**  Tokens that have built some parts, followed by others that do not reach back, make the
expression of those parts before the expression of the others. -/
theorem join?_append {ts us : List Token} {base : List Part} (hus : .bar ∉ us)
    (hhead : ∀ t ∈ us.head?, ¬t.IsMark)
    (hts : ts.foldlM Machine.step? Machine.start = some ⟨⟨false, base, []⟩, []⟩) :
    join? (ts ++ us) = (join? us).map (chain (base.reverse.map Part.regex)) := by
  unfold join?
  simp only [List.foldlM_append, hts, Option.bind_eq_bind, Option.bind_some, run_onto base hus hhead]
  cases hm : us.foldlM Machine.step? Machine.start with
  | none => rfl
  | some m =>
    have hstart : Machine.start.Single := ⟨rfl, by simp [Machine.start]⟩
    have hsingle : m.Single := by
      refine Machine.run_keeps (fun t ht _ _ hm => Machine.single_step ?_ hm) hstart hm
      rintro rfl
      exact hus ht
    simp only [Option.map_some, Option.bind_some]
    by_cases houter : m.outer = []
    · have hempty : (Machine.onto base m.level m.outer).outer = [] := by rw [houter]; rfl
      rw [hempty, close_onto hsingle houter, houter]
      rfl
    · have hne : ∀ (level : Level) (outer : List Level), outer ≠ [] →
          (Machine.onto base level outer).outer ≠ [] := by
        intro level outer h
        cases outer with
        | nil => exact absurd rfl h
        | cons below outer => simp [Machine.onto]
      rw [if_neg (by simpa using hne _ _ houter), if_neg (by simpa using houter)]
      rfl

end ScanBounds.Regex
