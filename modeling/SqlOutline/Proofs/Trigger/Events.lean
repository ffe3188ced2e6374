import SqlOutline.Proofs.Trigger.BlockWords

/-!
# Events of a header

An event may name columns, which may be called like events, so the columns are replaced first: from
the word `OF` up to the next word `OR` between white space, or to the end.

## Main definitions

* `TriggerEvent`, `EventColumns`, `EventLink` — events, their columns, and the words between.

## Main results

* `replaced_written` — columns are replaced by the word `OR`, and nothing else is.
* `postgresEvents_written` — the events of a header.
-/

namespace SqlOutline

open Text Cursor
open List hiding all find?

/-! ## Searching and replacing -/

variable {k : Cursor} {s : String}

namespace Pattern

variable {p q : Pattern} {ps : List Pattern} {b : Option Char} {n : Nat} {x y z w r new : Text}

/-- No match starts in `x` when `y` follows. -/
def Avoids (p : Pattern) (b : Option Char) (x y : Text) : Prop :=
  ∀ z c u n, x = z ++ c :: u → p.matchAt? ⟨z.getLast?.or b, c :: (u ++ y), n, []⟩ = none

lemma avoids_nil : p.Avoids b [] y := by
  intro z c u n h
  simp at h

lemma Avoids.append (hx : p.Avoids b x (y ++ r)) (hy : p.Avoids (x.getLast?.or b) y r) :
    p.Avoids b (x ++ y) r := by
  intro z c u n h
  rcases append_eq_append_iff.mp h with ⟨a, rfl, rfl⟩ | ⟨a, rfl, ha⟩
  · have hplace := hy a c u n rfl
    rwa [← Option.or_assoc, ← getLast?_append] at hplace
  · cases a with
    | nil =>
      have hplace := hy [] c u n ha.symm
      rwa [append_nil] at hplace
    | cons d a =>
      obtain ⟨rfl, rfl⟩ := cons.inj ha
      have hplace := hx z c a n rfl
      rwa [← append_assoc] at hplace

lemma Avoids.matchAt?_eq_none (h : p.Avoids b x y) (z : Text) (k : Cursor)
    (hk : Cursor.Reaches ⟨b, x ++ y, n, []⟩ z k) (hlt : k.offset < n + byteLength x) :
    p.matchAt? k = none := by
  have hrest : x ++ y = z ++ k.rest := hk.rest
  have hoffset : k.offset = n + byteLength z := hk.offset
  rcases append_eq_append_iff.mp hrest with ⟨a, rfl, -⟩ | ⟨a, rfl, ha⟩
  · rw [byteLength_append] at hoffset
    omega
  · cases a with
    | nil =>
      rw [append_nil] at hlt
      omega
    | cons c u =>
      have hplace := h z c u (n + byteLength z) rfl
      obtain ⟨before, rest, offset, groups⟩ := k
      obtain rfl : before = z.getLast?.or b := hk.before
      obtain rfl : rest = c :: u ++ y := ha
      obtain rfl : offset = n + byteLength z := hoffset
      exact hplace

def replaced (p : Pattern) (new : Text) (b : Option Char) (n : Nat) (t : Text) : Text :=
  replaceAll.go new n t (p.findAllFrom b n t)

lemma replaced_of_avoids {t : Text} (h : p.Avoids b t [])
    (hend : p.matchAt? ⟨t.getLast?.or b, [], n + byteLength t, []⟩ = none) :
    p.replaced new b n t = t := by
  have hfind := findFrom?_append (b := b) (n := n) (h.matchAt?_eq_none (n := n))
  rw [append_nil, findFrom?, hend] at hfind
  rw [replaced, findAllFrom, hfind]
  rfl

/-- **The first match is replaced**, and so is what follows it. -/
lemma replaced_of_match (h : p.Avoids b x (z ++ r)) (hz : z ≠ [])
    (hmatch : p.matchAt? ⟨x.getLast?.or b, z ++ r, n + byteLength x, []⟩ =
      some (behind z ⟨x.getLast?.or b, z ++ r, n + byteLength x, []⟩)) :
    p.replaced new b n (x ++ (z ++ r)) =
      x ++ (new ++ p.replaced new (z.getLast?.or (x.getLast?.or b))
        (n + byteLength x + byteLength z) r) := by
  have hfind := findFrom?_append (b := b) (n := n) (h.matchAt?_eq_none (n := n))
  rw [findFrom?_of_matchAt? hmatch] at hfind
  have hlength : r.length < (x ++ (z ++ r)).length := by
    have := length_pos_of_ne_nil hz
    simp only [length_append]
    omega
  have hstart : n + byteLength x - n = byteLength x := Nat.add_sub_cancel_left _ _
  have hstop : n + byteLength x + byteLength z - n = byteLength (x ++ z) := by
    rw [byteLength_append]
    omega
  rw [replaced, findAllFrom, hfind]
  simp only [behind, drop_left]
  rw [if_pos hlength, replaceAll.go]
  simp only [Found.whole, textTo]
  rw [hstart, hstop, takeBytes_byteLength, ← append_assoc x z r, dropBytes_byteLength, append_assoc]
  rfl

lemma matchAt?_of_fails (h : q.Fails { k with groups := [] }) :
    (all (.boundary :: q :: ps)).matchAt? k = none := by
  rw [matchAt?, run_all_cons, run, run_all_cons, h]
  exact ite_self none

lemma avoids_blanks (hq : ∀ k : Cursor, k.rest.head?.any isBlank → q.Fails k)
    (hx : ∀ c ∈ x, isBlank c) : (all (.boundary :: q :: ps)).Avoids b x y := by
  rintro z c u n rfl
  exact matchAt?_of_fails (hq _ (hx c (by simp)))

lemma avoids_word (hq : ∀ k : Cursor, k.rest = w ++ y → q.Fails k)
    (hw : ∀ c ∈ w, isWordChar c) : (all (.boundary :: q :: ps)).Avoids b w y := by
  rintro z c u n rfl
  rcases eq_nil_or_concat' z with rfl | ⟨z, d, rfl⟩
  · exact matchAt?_of_fails (hq _ rfl)
  · have hd : isWordChar d := hw d (by simp)
    have hc : isWordChar c := hw c (by simp)
    rw [matchAt?, run_all_cons, run, if_neg]
    simp [isWordBoundary, hc, hd]

lemma fails_anyOf (h : ∀ p ∈ ps, p.Fails k) : (anyOf ps).Fails k := by
  intro next
  induction ps with
  | nil =>
    show run (.one fun _ => false) k next = none
    rw [run]
    cases k.rest <;> rfl
  | cons p ps ih =>
    obtain ⟨hp, hps⟩ := forall_mem_cons.mp h
    cases ps with
    | nil => exact hp next
    | cons q ps =>
      show (alt p (anyOf (q :: ps))).run k next = none
      rw [run_alt, hp, ih hps]
      rfl

lemma fails_lit (hs : IsCapital s)
    (hk : ∀ c ∈ k.rest.head?, isBlank c) : (lit s).Fails k := by
  refine fails_of_not_spells (floats_lit s) fun x r hx hspells => ?_
  have hspelled := spells_lit_iff.mp hspells
  obtain ⟨c, x, rfl⟩ := exists_cons_of_ne_nil (hspelled.ne_nil hs)
  have hc := hk c (by rw [hx]; rfl)
  rw [hspelled.isBlank_eq_false hs c mem_cons_self] at hc
  cases hc

end Pattern

namespace TriggerScan

open Pattern

/-! ## Events -/

def eventKeywords : List String := ["INSERT", "UPDATE", "DELETE", "TRUNCATE"]

/-- The columns whose update is meant: white space, the word `OF`, white space and names. -/
structure EventColumns where
  gap : Text
  keyword : Text
  space : Text
  names : Text

namespace EventColumns

/-- Columns as they are written. -/
def text (c : EventColumns) : Text := c.gap ++ (c.keyword ++ (c.space ++ c.names))

/-- Names in a statement, none of which is the word `OR`. -/
structure IsPlain (c : EventColumns) : Prop where
  gap : IsGap c.gap
  keyword : upper c.keyword = "OF".toList
  space : IsGap c.space
  first : c.names.head?.any (fun a => !isBlank a)
  last : c.names.getLast?.any (fun a => !isBlank a)
  inside : ';' ∉ c.names
  apart : ∀ w ∈ words c.names, upper w ≠ "OR".toList

end EventColumns

/-- The word `OR` between two events, with white space around it. -/
structure EventLink where
  gap : Text
  keyword : Text
  space : Text

namespace EventLink

def text (o : EventLink) : Text := o.gap ++ (o.keyword ++ o.space)

structure IsPlain (o : EventLink) : Prop where
  gap : IsGap o.gap
  keyword : upper o.keyword = "OR".toList
  space : IsGap o.space

end EventLink

/-- An event, perhaps of some columns only. -/
structure TriggerEvent where
  word : Text
  columns : Option EventColumns

namespace TriggerEvent

def text (e : TriggerEvent) : Text := e.word ++ (e.columns.elim [] EventColumns.text)

structure IsPlain (e : TriggerEvent) : Prop where
  word : ∃ s ∈ eventKeywords, upper e.word = s.toList
  columns : ∀ c ∈ e.columns, upper e.word = "UPDATE".toList ∧ c.IsPlain

/-- Events with the word `OR` between them. -/
def written (e : TriggerEvent) : List (EventLink × TriggerEvent) → Text
  | [] => e.text
  | (o, f) :: rest => e.text ++ (o.text ++ written f rest)

/-- The events with `OR` in place of the columns and of what follows them. -/
def bare (e : TriggerEvent) (space : Text) : List (EventLink × TriggerEvent) → Text
  | [] => e.word ++ (e.columns.elim space fun c => c.gap ++ " OR ".toList)
  | (o, f) :: rest =>
    e.word ++ ((e.columns.elim o.text fun c => c.gap ++ " OR ".toList) ++ bare f space rest)

end TriggerEvent

variable {x y r space w : Text} {o : EventLink} {e : TriggerEvent} {b : Option Char}
  {rest : List (EventLink × TriggerEvent)}

/-! ## Columns are taken up to the next event -/

lemma words_append_blanks {s : Text} (hs : ∀ c ∈ s, isBlank c) (x : Text) :
    words (x ++ s) = words x := by
  cases s with
  | nil => rw [append_nil]
  | cons c s =>
    obtain ⟨hc, hs⟩ := forall_mem_cons.mp hs
    have hblank := words_append_of_blank hs []
    rw [append_nil] at hblank
    rw [words, splitOnChar_append_sep hc, filter_append, ← words, ← words, hblank]
    exact append_nil _

lemma mem_words_of_gap {g o z : Text} (hg : IsGap g) (hne : o ≠ [])
    (ho : ∀ c ∈ o, isBlank c = false) (hz : ∀ c ∈ z.head?, isBlank c) :
    o ∈ words (x ++ (g ++ (o ++ z))) := by
  obtain ⟨c, g, rfl⟩ := exists_cons_of_ne_nil hg.1
  obtain ⟨hc, hg⟩ := forall_mem_cons.mp hg.2
  rw [cons_append, words, splitOnChar_append_sep hc, filter_append, ← words, ← words,
    words_append_of_blank hg, words_append_of_not_blank hne ho hz]
  simp

/-- **Text without the word `OR`** has no place where it could end. -/
lemma fails_or (hwords : ∀ w ∈ words (x ++ y), upper w ≠ "OR".toList) (hy : y ≠ [])
    (hr : r = [] ∨ (∀ c ∈ r.head?, isBlank c) ∧ ∀ c ∈ y.getLast?, isBlank c = false)
    (hk : k.rest = y ++ r) : (all [blanks, lit "OR", blanks]).Fails k := by
  refine fails_of_not_spells (by decide) fun t v ht hspells => ?_
  obtain ⟨g, _, rfl, hg, hspells⟩ := spells_all_cons_iff.mp hspells
  obtain ⟨o, h, rfl, ho, hh⟩ := spells_all_cons_iff.mp hspells
  have hgap : IsGap g := spells_blanks_iff.mp hg
  have hspace : IsGap h := spells_blanks_iff.mp hh
  have hcapital : IsCapital "OR" := by decide
  have hspelled := spells_lit_iff.mp ho
  have hne := hspelled.ne_nil hcapital
  have hplain := hspelled.isBlank_eq_false hcapital
  have hupper : upper o = "OR".toList := (spelled_iff_upper (by decide)).mp hspelled
  have hcontra {z : Text} (hz : ∀ c ∈ z.head?, isBlank c) (hyz : y = g ++ (o ++ z)) :
      False := hwords o (hyz ▸ mem_words_of_gap hgap hne hplain hz) hupper
  have heq : y ++ r = g ++ (o ++ (h ++ v)) := by
    rw [← hk, ht]
    simp
  rcases hr with rfl | ⟨hr, hlast⟩
  · exact hcontra (hspace.head v) (by rwa [append_nil] at heq)
  · rw [← append_assoc] at heq
    rcases append_eq_append_iff.mp heq with ⟨a, ha, hrest⟩ | ⟨a, rfl, hrest⟩
    · cases a with
      | nil => exact hcontra (z := []) (by simp) (by simpa using ha.symm)
      | cons d a =>
        have hd : isBlank d := hr d (by rw [hrest]; rfl)
        rcases append_eq_append_iff.mp ha with ⟨u, rfl, rfl⟩ | ⟨u, rfl, -⟩
        · rw [hplain d (by simp)] at hd
          cases hd
        · -- then all of the text is white space
          have hend := hlast _ (getLast?_eq_getLast_of_ne_nil hy)
          rw [hgap.2 _ (mem_append_left u (getLast_mem hy))] at hend
          cases hend
    · refine hcontra (z := a) ?_ (append_assoc _ _ _)
      cases a with
      | nil => simp
      | cons d a =>
        rintro _ ⟨⟩
        exact hspace.head v d (by rw [hrest]; rfl)

def columnsEnd : Pattern := anyOf [all [blanks, lit "OR", blanks], .atEnd]

lemma EventLink.IsPlain.leads (ho : o.IsPlain)
    (hr : r.head?.any isBlank = false) (hk : k.rest = o.text ++ r) :
    (all [blanks, lit "OR", blanks]).Leads k (k.behind o.text) := by
  have hcapital : IsCapital "OR" := by decide
  have hspelled := spelled_of_upper hcapital ho.keyword
  rw [text, append_assoc, append_assoc] at hk
  have hk₁ := rest_behind hk
  have hk₂ := rest_behind hk₁
  have hword : (o.keyword ++ (o.space ++ r)).head?.any isBlank = false :=
    (InWords.single hspelled).head_eq_false hcapital _
  rw [text, behind_append, behind_append]
  exact (ho.gap.leads hword hk).cons ((leads_lit hspelled hk₁).cons ((ho.space.leads hr hk₂).cons
    (leads_all_nil _)))

lemma run_columnsEnd (hk : (all [blanks, lit "OR", blanks]).Fails k)
    (hrest : k.rest ≠ []) : columnsEnd.run k some = none := by
  have hend : Pattern.atEnd.run k some = none := if_neg (by simpa using hrest)
  show (Pattern.alt (all [blanks, lit "OR", blanks]) .atEnd).run k some = none
  rw [run_alt, hk, hend]
  rfl

namespace EventColumns

variable {c : EventColumns} {k : Cursor}

lemma IsPlain.matchAt? (hc : c.IsPlain) {m u v : Text}
    (hk : k.rest = c.keyword ++ (c.space ++ (c.names ++ (m ++ r))))
    (hbefore : k.before.any isWordChar = false) (hgroups : k.groups = [])
    (huv : m = u ++ v) (hu : ∀ a ∈ u, a ≠ ';')
    (hfail : ∀ (y z : Text) (l : Cursor), c.names ++ u = y ++ z → y ≠ [] → z ≠ [] →
      l.rest = z ++ (v ++ r) → columnsEnd.run l some = none)
    (hend : ∀ l : Cursor, l.rest = v ++ r → columnsEnd.Leads l (l.behind v)) :
    updatedColumns.matchAt? k = some (k.behind (c.keyword ++ (c.space ++ (c.names ++ m)))) := by
  have hkeyword := spelled_of_upper (s := "OF") (by decide) hc.keyword
  have hall := isWordChar_of_upper hc.keyword (by decide)
  obtain ⟨a, names, hnames⟩ : ∃ a names, c.names = a :: names := by
    refine exists_cons_of_ne_nil fun hnil => ?_
    have hfirst := hc.first
    rw [hnil] at hfirst
    cases hfirst
  have hfirst : isBlank a = false := by simpa [hnames] using hc.first
  have hinside : ∀ d ∈ a :: (names ++ u), (d != ';') := by
    intro d hd
    rw [← cons_append, ← hnames] at hd
    rcases mem_append.mp hd with hd | hd
    · simpa using fun h : d = ';' => hc.inside (h ▸ hd)
    · simpa using hu d hd
  obtain ⟨ha, hinside⟩ := forall_mem_cons.mp hinside
  have hk₁ := rest_behind hk
  have hk₂ := rest_behind hk₁
  have hk₃ : (((k.behind c.keyword).behind c.space).behind [a]).rest = names ++ u ++ (v ++ r) := by
    refine rest_behind (hk₂.trans ?_)
    simp [hnames, huv]
  set l := ((k.behind c.keyword).behind c.space).behind [a] with hl
  have hlazy : (all [.many false inStatement, columnsEnd]).run l some =
      some ((l.behind (names ++ u)).behind v) := by
    rw [run_all_cons]
    refine run_many_lazy hinside hk₃ (fun y z hyz hz => ?_)
      (hend _ (rest_behind hk₃) some rfl)
    refine hfail (a :: y) z _ (by rw [hnames, cons_append, hyz]; rfl) (cons_ne_nil _ _)
      hz ?_
    exact rest_behind (hk₃.trans (by rw [hyz, append_assoc]))
  have hboundary : isWordBoundary k.before k.rest.head? := by
    rw [hk]
    exact (isWordBoundary_before_word (hkeyword.ne_nil (by decide)) hall _ _).mpr hbefore
  have hspace : (c.names ++ (m ++ r)).head?.any isBlank = false := by
    rw [hnames]
    exact hfirst
  have hone : inStatement.Leads ((k.behind c.keyword).behind c.space) l :=
    leads_one ha (r := names ++ (m ++ r)) (by rw [hk₂, hnames]; rfl)
  have hmatch := (leads_boundary hboundary).run_cons ((leads_lit hkeyword hk).run_cons
    ((hc.space.leads hspace hk₁).run_cons (hone.run_cons hlazy)))
  have hplace : k.behind (c.keyword ++ (c.space ++ (c.names ++ m))) =
      (l.behind (names ++ u)).behind v := by
    simp [hl, ← behind_append, hnames, huv]
  have hstart : { k with groups := [] } = k := by rw [← hgroups]
  rw [hplace, Pattern.matchAt?, hstart]
  exact hmatch

/-- **Columns in front of another event** are read with the word `OR`. -/
lemma IsPlain.matchAt?_link (hc : c.IsPlain) (ho : o.IsPlain) (hr : r.head?.any isBlank = false)
    (hk : k.rest = c.keyword ++ (c.space ++ (c.names ++ (o.text ++ r))))
    (hbefore : k.before.any isWordChar = false) (hgroups : k.groups = []) :
    updatedColumns.matchAt? k =
      some (k.behind (c.keyword ++ (c.space ++ (c.names ++ o.text)))) := by
  refine hc.matchAt? hk hbefore hgroups (u := []) rfl (by simp) (fun y z l hyz hy hz hl => ?_)
    fun l hl => (ho.leads hr hl).altLeft _
  rw [append_nil] at hyz
  have hlast : ∀ a ∈ z.getLast?, isBlank a = false := by
    intro a ha
    have hlast := hc.last
    rw [hyz, getLast?_append_of_ne_nil _ hz, ha] at hlast
    simpa using hlast
  have hblank : ∀ a ∈ (o.text ++ r).head?, isBlank a := by
    rw [EventLink.text, append_assoc]
    exact ho.gap.head _
  exact run_columnsEnd (fails_or (hyz ▸ hc.apart) hz (.inr ⟨hblank, hlast⟩) hl) (by simp [hl, hz])

/-- **Columns at the end of a text** are read to its end. -/
lemma IsPlain.matchAt?_end (hc : c.IsPlain) (hspace : ∀ a ∈ space, isBlank a)
    (hk : k.rest = c.keyword ++ (c.space ++ (c.names ++ space)))
    (hbefore : k.before.any isWordChar = false) (hgroups : k.groups = []) :
    updatedColumns.matchAt? k =
      some (k.behind (c.keyword ++ (c.space ++ (c.names ++ space)))) := by
  have hwords : ∀ w ∈ words (c.names ++ space), upper w ≠ "OR".toList := by
    rw [words_append_blanks hspace]
    exact hc.apart
  refine hc.matchAt? (m := space) (r := []) (u := space) (v := []) (by simpa using hk) hbefore
    hgroups (append_nil _).symm (fun a ha => ?_) (fun y z l hyz hy hz hl => ?_) fun l hl => ?_
  · rintro rfl
    exact absurd (hspace _ ha) (by decide)
  · exact run_columnsEnd (fails_or (hyz ▸ hwords) hz (.inl rfl) hl) (by simp [hl, hz])
  · have hbehind : l.behind [] = l := by simp [Cursor.behind]
    have hrest : l.rest = [] := hl
    have hfails : (all [blanks, lit "OR", blanks]).Fails l := by
      intro next
      rw [run_all_cons, blanks, some1, run, run, hrest]
    rw [hbehind]
    exact .altRight hfails (leads_atEnd hrest)

end EventColumns

/-! ## Columns are replaced -/

section Avoids

variable {b : Option Char} {x y : Text}

lemma isCapital_eventKeywords : ∀ s ∈ eventKeywords, IsCapital s := by decide

lemma word_of_upper (hs : IsCapital s) (h : upper w = s.toList) :
    w ≠ [] ∧ ∀ c ∈ w, isWordChar c := by
  have hspelled := spelled_of_upper hs h
  refine ⟨hspelled.ne_nil hs, fun c hc => isWordChar_of_isAsciiAlpha ?_⟩
  exact isAsciiAlpha_of_toUpper (hs.2 _ (h ▸ mem_map_of_mem hc)).1

lemma updatedColumns_avoids_word (hs : IsCapital s)
    (hne : ¬ "OF".toList <+: s.toList) (h : upper w = s.toList)
    (hy : ∀ c ∈ y.head?, isBlank c) : updatedColumns.Avoids b w y :=
  avoids_word (fun _ hk => fails_phrase (b := []) hs (by decide)
    (.single (spelled_of_upper hs h)) hy hk hne) (word_of_upper hs h).2

lemma updatedColumns_avoids_blanks (hx : ∀ c ∈ x, isBlank c) :
    updatedColumns.Avoids b x y := by
  refine avoids_blanks (fun k hk => fails_lit (by decide) fun c hc => ?_) hx
  rw [hc] at hk
  exact hk

lemma eventWord_avoids_blanks (hx : ∀ c ∈ x, isBlank c) : eventWord.Avoids b x y := by
  refine avoids_blanks (fun k hk => fails_anyOf ?_) hx
  have hblank : ∀ c ∈ k.rest.head?, isBlank c := by
    intro c hc
    rw [hc] at hk
    exact hk
  intro p hp
  obtain ⟨s, hs, rfl⟩ := mem_map.mp (show p ∈ eventKeywords.map lit from hp)
  exact fails_lit (isCapital_eventKeywords s hs) hblank

lemma eventWord_avoids_or (h : upper w = "OR".toList)
    (hy : ∀ c ∈ y.head?, isBlank c) : eventWord.Avoids b w y := by
  have hcapital : IsCapital "OR" := by decide
  refine avoids_word (fun k hk => fails_anyOf fun p hp => ?_) (word_of_upper hcapital h).2
  obtain ⟨s, hs, rfl⟩ := mem_map.mp (show p ∈ eventKeywords.map lit from hp)
  have hapart : ∀ s ∈ eventKeywords, ¬ s.toList <+: "OR".toList := by decide
  exact fails_phrase (b := []) hcapital (isCapital_eventKeywords s hs)
    (.single (spelled_of_upper hcapital h)) hy hk (hapart s hs)

lemma EventLink.IsPlain.avoids (ho : o.IsPlain) : updatedColumns.Avoids b o.text y :=
  (updatedColumns_avoids_blanks ho.gap.2).append ((updatedColumns_avoids_word (by decide)
    (by decide) ho.keyword (ho.space.head y)).append (updatedColumns_avoids_blanks ho.space.2))

lemma updatedColumns_end (hk : k.rest = []) : updatedColumns.matchAt? k = none :=
  matchAt?_of_fails (fails_lit (by decide) (by simp [hk]))

end Avoids

lemma TriggerEvent.IsPlain.avoids (he : e.IsPlain)
    (hy : ∀ c ∈ y.head?, isBlank c) : updatedColumns.Avoids b e.word y := by
  obtain ⟨s, hs, hword⟩ := he.word
  have hapart : ∀ s ∈ eventKeywords, ¬ "OF".toList <+: s.toList := by decide
  exact updatedColumns_avoids_word (isCapital_eventKeywords s hs) (hapart s hs) hword hy

lemma any_getLast?_of_gap {g : Text} (hg : IsGap g) (x w : Text) (b : Option Char) :
    ((x ++ (w ++ g)).getLast?.or b).any isWordChar = false := by
  rw [getLast?_append_of_ne_nil _ (by simp [hg.1]), getLast?_append_of_ne_nil _ hg.1,
    getLast?_eq_getLast_of_ne_nil hg.1]
  exact isWordChar_eq_false_of_isBlank (hg.2 _ (getLast_mem hg.1))

namespace EventColumns.IsPlain

variable {c : EventColumns} (hc : c.IsPlain)

include hc

lemma keyword_append_ne_nil : c.keyword ++ y ≠ [] := by
  simp [(word_of_upper (s := "OF") (by decide) hc.keyword).1]

lemma avoids_before (he : e.IsPlain) (hx : updatedColumns.Avoids b x (e.word ++ c.gap ++ y)) :
    updatedColumns.Avoids b (x ++ (e.word ++ c.gap)) y :=
  hx.append ((he.avoids (hc.gap.head y)).append (updatedColumns_avoids_blanks hc.gap.2))

end EventColumns.IsPlain

namespace TriggerEvent

variable {e : TriggerEvent} {b : Option Char}

lemma head?_written (he : e.IsPlain) (rest : List (EventLink × TriggerEvent)) (y : Text) :
    (e.written rest ++ y).head?.any isBlank = false := by
  obtain ⟨s, hs, hword⟩ := he.word
  obtain ⟨hne, hall⟩ := word_of_upper (isCapital_eventKeywords s hs) hword
  obtain ⟨u, hu⟩ : ∃ u, e.written rest ++ y = e.word ++ u := by
    cases rest with
    | nil => exact ⟨_, append_assoc _ _ _⟩
    | cons r rest => exact ⟨_, by rw [written, text, append_assoc, append_assoc]⟩
  rw [hu]
  exact head?_not_blank_of_word hne hall u

/-- **Columns are replaced by the word `OR`**, and nothing else is. -/
lemma replaced_written (hspace : ∀ c ∈ space, isBlank c) (he : e.IsPlain)
    (hrest : ∀ r ∈ rest, r.1.IsPlain ∧ r.2.IsPlain)
    (hx : updatedColumns.Avoids b x (e.written rest ++ space)) (n : Nat) :
    updatedColumns.replaced " OR ".toList b n (x ++ (e.written rest ++ space)) =
      x ++ e.bare space rest := by
  have hhead : ∀ c ∈ space.head?, isBlank c :=
    fun c hc => hspace c (mem_of_mem_head? hc)
  induction rest generalizing e x b n with
  | nil =>
    cases hcolumns : e.columns with
    | none =>
      have hsource : e.written [] ++ space = e.word ++ space := by simp [written, text, hcolumns]
      have hbare : e.bare space [] = e.word ++ space := by simp [bare, hcolumns]
      rw [hsource] at hx ⊢
      have hword : updatedColumns.Avoids (x.getLast?.or b) (e.word ++ space) [] :=
        (he.avoids (by simpa using hhead)).append (updatedColumns_avoids_blanks hspace)
      rw [hbare]
      exact replaced_of_avoids (Avoids.append (by rwa [append_nil]) hword)
        (updatedColumns_end rfl)
    | some c =>
      obtain ⟨-, hc⟩ := he.columns c hcolumns
      set z := c.keyword ++ (c.space ++ (c.names ++ space)) with hz
      have hsource : e.written [] ++ space = e.word ++ c.gap ++ z := by
        simp [written, text, hcolumns, EventColumns.text, hz]
      have hbare : e.bare space [] = e.word ++ c.gap ++ " OR ".toList := by simp [bare, hcolumns]
      rw [hsource] at hx ⊢
      have hbefore := hc.avoids_before he hx
      have hmatch := hc.matchAt?_end hspace
        (k := ⟨(x ++ (e.word ++ c.gap)).getLast?.or b, z ++ [],
          n + byteLength (x ++ (e.word ++ c.gap)), []⟩)
        (append_nil z) (any_getLast?_of_gap hc.gap x e.word b) rfl
      have hend (b : Option Char) (n : Nat) : updatedColumns.replaced " OR ".toList b n [] = [] :=
        replaced_of_avoids avoids_nil (updatedColumns_end rfl)
      rw [← append_assoc x, ← append_nil z, replaced_of_match (by rwa [append_nil])
        hc.keyword_append_ne_nil hmatch, hend, hbare]
      simp only [append_assoc, append_nil]
  | cons r rest ih =>
    obtain ⟨o, f⟩ := r
    obtain ⟨⟨ho, hf⟩, hrest⟩ := forall_mem_cons.mp hrest
    have ho : o.IsPlain := ho
    have hf : f.IsPlain := hf
    set t := f.written rest ++ space with ht
    cases hcolumns : e.columns with
    | none =>
      have hsource : e.written ((o, f) :: rest) ++ space = e.word ++ o.text ++ t := by
        simp [written, text, hcolumns, ht]
      have hbare : e.bare space ((o, f) :: rest) = e.word ++ o.text ++ f.bare space rest := by
        simp [bare, hcolumns]
      rw [hsource] at hx ⊢
      have hgap : ∀ c ∈ (o.text ++ t).head?, isBlank c := by
        rw [EventLink.text, append_assoc]
        exact ho.gap.head _
      have hrec := ih hf hrest (hx.append ((he.avoids hgap).append ho.avoids)) n
      rw [hbare]
      simpa only [append_assoc] using hrec
    | some c =>
      obtain ⟨-, hc⟩ := he.columns c hcolumns
      set z := c.keyword ++ (c.space ++ (c.names ++ o.text)) with hz
      have hsource : e.written ((o, f) :: rest) ++ space = e.word ++ c.gap ++ (z ++ t) := by
        simp [written, text, hcolumns, EventColumns.text, hz, ht]
      have hbare : e.bare space ((o, f) :: rest) =
          e.word ++ c.gap ++ (" OR ".toList ++ f.bare space rest) := by simp [bare, hcolumns]
      rw [hsource] at hx ⊢
      have hbefore := hc.avoids_before he hx
      have hmatch := hc.matchAt?_link ho (head?_written hf rest space)
        (k := ⟨(x ++ (e.word ++ c.gap)).getLast?.or b, z ++ t,
          n + byteLength (x ++ (e.word ++ c.gap)), []⟩)
        (by simp [hz, ht]) (any_getLast?_of_gap hc.gap x e.word b) rfl
      have hrec (b : Option Char) (n : Nat) :
          updatedColumns.replaced " OR ".toList b n t = f.bare space rest :=
        ih hf hrest avoids_nil n
      rw [← append_assoc x, replaced_of_match hbefore hc.keyword_append_ne_nil hmatch, hrec, hbare]
      simp only [append_assoc]

end TriggerEvent

/-! ## Events are found -/

lemma EventLink.IsPlain.head (ho : o.IsPlain) (y : Text) :
    ∀ c ∈ (o.text ++ y).head?, isBlank c := by
  rw [EventLink.text, append_assoc]
  exact ho.gap.head _

lemma EventColumns.IsPlain.exists_link {c : EventColumns} (hc : c.IsPlain) :
    ∃ o : EventLink, o.IsPlain ∧ o.text = c.gap ++ " OR ".toList := by
  have hkeyword : upper "OR".toList = "OR".toList := by decide
  have hspace : IsGap [' '] := by decide
  refine ⟨⟨c.gap ++ [' '], "OR".toList, [' ']⟩, ⟨⟨by simp, fun a ha => ?_⟩, hkeyword, hspace⟩, ?_⟩
  · rcases mem_append.mp ha with ha | ha
    · exact hc.gap.2 a ha
    · rw [mem_singleton.mp ha]
      rfl
  · simp [EventLink.text]

lemma proper_eventWord : eventWord.Proper where
  floats := by decide
  not_spells_nil b r h := by
    obtain ⟨x, y, hxy, -, h⟩ := spells_all_cons_iff.mp h
    obtain ⟨w, v, rfl, hw, -⟩ := spells_all_cons_iff.mp h
    obtain ⟨rfl, hwv⟩ := append_eq_nil_iff.mp hxy.symm
    obtain ⟨rfl, -⟩ := append_eq_nil_iff.mp hwv
    simp [anyOf, spells_lit_iff, Spelled] at hw

lemma findAllFrom_eventWord_nil (b : Option Char) (n : Nat) :
    eventWord.findAllFrom b n [] = [] := by
  have hfails : eventWord.matchAt? ⟨b, [], n, []⟩ = none := by
    refine matchAt?_of_fails (fails_anyOf fun p hp => ?_)
    obtain ⟨s, hs, rfl⟩ := mem_map.mp (show p ∈ eventKeywords.map lit from hp)
    exact fails_lit (isCapital_eventKeywords s hs) (by simp)
  rw [findAllFrom, findFrom?, hfails]
  rfl

lemma EventLink.IsPlain.findAllFrom (ho : o.IsPlain) (b : Option Char) (n : Nat)
    (y : Text) : eventWord.findAllFrom b n (o.text ++ y) =
      eventWord.findAllFrom (o.text.getLast?.or b) (n + byteLength o.text) y ∧
    (o.text.getLast?.or b).any isWordChar = false := by
  have havoids : eventWord.Avoids b o.text y :=
    (eventWord_avoids_blanks ho.gap.2).append ((eventWord_avoids_or ho.keyword
      (ho.space.head y)).append (eventWord_avoids_blanks ho.space.2))
  exact ⟨proper_eventWord.findAllFrom_append havoids.matchAt?_eq_none,
    any_getLast?_of_gap ho.space o.gap o.keyword b⟩

namespace TriggerEvent

variable {e : TriggerEvent} {b : Option Char}

/-- **An event is found** where a word may start. -/
lemma IsPlain.findAllFrom (he : e.IsPlain) (hb : b.any isWordChar = false) (n : Nat)
    (hy : ∀ c ∈ y.head?, isBlank c) :
    ∃ m : Found, m.whole.text = e.word ∧ eventWord.findAllFrom b n (e.word ++ y) =
      m :: eventWord.findAllFrom (e.word.getLast?.or b) (n + byteLength e.word) y := by
  obtain ⟨s, hs, hword⟩ := he.word
  have hcapital := isCapital_eventKeywords s hs
  obtain ⟨hne, hall⟩ := word_of_upper hcapital hword
  set k : Cursor := ⟨b, e.word ++ y, n, []⟩ with hk
  have hstart : isWordBoundary k.before k.rest.head? :=
    (isWordBoundary_before_word hne hall b y).mpr hb
  have hmem : [s] ∈ eventKeywords.map fun s => [s] := mem_map_of_mem hs
  have hlead : (anyOf ((eventKeywords.map fun s => [s]).map phrase)).Leads k (k.behind e.word) :=
    leads_anyOf_phrase (by decide) (by decide) hmem (.single (spelled_of_upper hcapital hword)) hy
      rfl
  have hrest : (k.behind e.word).rest = y := rest_behind (x := e.word) rfl
  have hend : isWordBoundary (k.behind e.word).before (k.behind e.word).rest.head? := by
    rw [hrest]
    refine (isWordBoundary_of_word hne hall b _).mpr ?_
    cases y with
    | nil => rfl
    | cons c y => exact isWordChar_eq_false_of_isBlank (hy c rfl)
  have hmatch : eventWord.matchAt? k = some (k.behind e.word) := Leads.matchAt?
    ((leads_boundary hstart).cons (hlead.cons ((leads_boundary hend).cons (leads_all_nil _))))
  have hfound := proper_eventWord.findAllFrom_of_some (findFrom?_of_matchAt? hmatch)
  refine ⟨⟨k, k.behind e.word⟩, ?_, ?_⟩
  · have hoffset : (k.behind e.word).offset - k.offset = byteLength e.word :=
      Nat.add_sub_cancel_left _ _
    rw [Found.whole, textTo, hoffset, hk, takeBytes_byteLength]
  · rw [hfound, hrest]
    rfl

/-- **All events are found**, in their order. -/
lemma findAllFrom_bare (hspace : ∀ c ∈ space, isBlank c) (he : e.IsPlain)
    (hrest : ∀ r ∈ rest, r.1.IsPlain ∧ r.2.IsPlain) (hb : b.any isWordChar = false) (n : Nat) :
    (eventWord.findAllFrom b n (e.bare space rest)).map (fun m => upperString m.whole.text) =
      (e :: rest.map Prod.snd).map fun f => upperString f.word := by
  induction rest generalizing e b n with
  | nil =>
    cases hcolumns : e.columns with
    | none =>
      have hbare : e.bare space [] = e.word ++ space := by simp [bare, hcolumns]
      obtain ⟨m, hm, hfound⟩ := he.findAllFrom hb n (y := space)
        fun c hc => hspace c (mem_of_mem_head? hc)
      have hrest := proper_eventWord.findAllFrom_append (b := e.word.getLast?.or b)
        (n := n + byteLength e.word) (eventWord_avoids_blanks (y := []) hspace).matchAt?_eq_none
      rw [append_nil, findAllFrom_eventWord_nil] at hrest
      rw [hbare, hfound, hrest]
      simp [hm]
    | some c =>
      obtain ⟨o, ho, htext⟩ := (he.columns c hcolumns).2.exists_link
      have hbare : e.bare space [] = e.word ++ (o.text ++ []) := by
        simp [bare, hcolumns, htext]
      obtain ⟨m, hm, hfound⟩ := he.findAllFrom hb n (ho.head [])
      rw [hbare, hfound, (ho.findAllFrom _ _ _).1, findAllFrom_eventWord_nil]
      simp [hm]
  | cons r rest ih =>
    obtain ⟨o, f⟩ := r
    obtain ⟨⟨ho, hf⟩, hrest⟩ := forall_mem_cons.mp hrest
    obtain ⟨o', ho', hbare⟩ : ∃ o' : EventLink, o'.IsPlain ∧
        e.bare space ((o, f) :: rest) = e.word ++ (o'.text ++ f.bare space rest) := by
      cases hcolumns : e.columns with
      | none => exact ⟨o, ho, by simp [bare, hcolumns]⟩
      | some c =>
        obtain ⟨o', ho', htext⟩ := (he.columns c hcolumns).2.exists_link
        exact ⟨o', ho', by simp [bare, hcolumns, htext]⟩
    obtain ⟨m, hm, hfound⟩ := he.findAllFrom hb n (ho'.head (f.bare space rest))
    obtain ⟨hlink, hbefore⟩ := ho'.findAllFrom (e.word.getLast?.or b) (n + byteLength e.word)
      (f.bare space rest)
    rw [hbare, hfound, hlink, map_cons, ih hf hrest hbefore, hm]
    rfl

end TriggerEvent

/-- **The events of a header** are its words for events, in capitals and each once, whatever columns
are named. -/
theorem postgresEvents_written {lead space : Text} {e : TriggerEvent}
    {rest : List (EventLink × TriggerEvent)} (hlead : ∀ c ∈ lead, isBlank c = true)
    (he : e.IsPlain) (hrest : ∀ r ∈ rest, r.1.IsPlain ∧ r.2.IsPlain)
    (hspace : ∀ c ∈ space, isBlank c = true) :
    postgresEvents (lead ++ (e.written rest ++ space)) =
      ((e :: rest.map Prod.snd).map fun f => upperString f.word).eraseDups := by
  have hreplaced : updatedColumns.replaceAll " OR ".toList (lead ++ (e.written rest ++ space)) =
      lead ++ e.bare space rest :=
    TriggerEvent.replaced_written hspace he hrest (updatedColumns_avoids_blanks hlead) 0
  have hbefore : (lead.getLast?.or none).any isWordChar = false := by
    rw [Option.or_none]
    cases hlast : lead.getLast? with
    | none => rfl
    | some c => exact isWordChar_eq_false_of_isBlank (hlead c (mem_of_getLast? hlast))
  have hfound := proper_eventWord.findAllFrom_append (b := none) (n := 0)
    (eventWord_avoids_blanks (y := e.bare space rest) hlead).matchAt?_eq_none
  rw [postgresEvents, hreplaced, findAll, hfound,
    TriggerEvent.findAllFrom_bare hspace he hrest hbefore]

/-- An update of columns, two of them named like keywords, between insertions. -/
theorem postgresEvents_written_columns :
    let e : TriggerEvent := ⟨"insert".toList, none⟩
    let f : TriggerEvent :=
      ⟨"Update".toList, some ⟨" ".toList, "of".toList, "\n".toList, "delete , of,or_x".toList⟩⟩
    let o : EventLink := ⟨" ".toList, "Or".toList, "\n".toList⟩
    (e.IsPlain ∧ f.IsPlain ∧ o.IsPlain) ∧
      postgresEvents "insert Or\nUpdate of\ndelete , of,or_x Or\ninsert ".toList =
        ["INSERT", "UPDATE"] := by
  intro e f o
  have he : e.IsPlain := ⟨⟨"INSERT", by decide, by decide⟩, by simp [e]⟩
  have hf : f.IsPlain := by
    refine ⟨⟨"UPDATE", by decide, by decide⟩, ?_⟩
    rintro c ⟨⟩
    exact ⟨by decide, by decide, by decide, by decide, by decide, by decide, by decide, by decide⟩
  have ho : o.IsPlain := ⟨by decide, by decide, by decide⟩
  have hrest : ∀ r ∈ [(o, f), (o, e)], r.1.IsPlain ∧ r.2.IsPlain := by simp [he, hf, ho]
  have hlead : ∀ c ∈ ([] : Text), isBlank c = true := by simp
  have hspace : ∀ c ∈ " ".toList, isBlank c = true := by decide
  exact ⟨⟨he, hf, ho⟩, postgresEvents_written hlead he hrest hspace⟩

end TriggerScan

end SqlOutline
