import SqlOutline.Proofs.Lexeme.Movable
import SqlOutline.Proofs.Name.Simple
import SqlOutline.Proofs.Routine.Kind
import SqlOutline.Proofs.Routine.Member
import SqlOutline.Proofs.Statement.Reread

/-!
# Packages and their members

The members of a package are cut out of the source and read once more, each as a routine that is
created. A header that starts with a dot is taken for a part of the name.

## Main definitions

* `PackageParts`, `IsPackage` — the parts of a package and how they are put together.

## Main results

* `IsFramed.exists_readSignature?` — a member is read as a routine of its own.
* `readPackage?_members` — a package is read with exactly its members.
-/

namespace SqlOutline

open List Text Scan Lexeme Name

/-! ## Lexemes that are scanned by themselves -/

variable {name : Lexeme} {ms : List Member}

section Reading

variable {t source g : Text} {l : Lexeme} {ks ls names rest : List Lexeme}

lemma isBoundary_of_mem_tokenize (hl : l ∈ tokenize t) : l.isBoundary = false := by
  obtain ⟨ls, st, c, u, hrun, hk, -⟩ := exists_run_of_mem hl
  rw [piece_of_delimiter_eq_none hrun.delimiter_eq_of_statement] at hk
  split_ifs at hk
  obtain ⟨kind, more, hpiece, hdir, hdel⟩ | ⟨more, fresh, hpiece, -⟩ := plainPiece_cases st c u
  · rw [hpiece] at hk
    obtain rfl : kind = l.kind := Option.some.inj hk
    simp [Lexeme.isBoundary, hdir, hdel]
  · rw [hpiece] at hk
    cases hk

/-- **Lexemes that are cut out of a text** and scanned by themselves are the same, without a number
sign at the end. -/
lemma exists_spanText? {g ms : List Lexeme} (h : tokenize source = ks ++ (g ++ ms)) (hne : g ≠ []) :
    ∃ x, spanText? source g = some x ∧
      (tokenize x).map (shift (groupStart g)) = withoutFinalSharp g := by
  have hdir : ∀ l ∈ g, l.kind ≠ .directive := by
    intro l hl hk
    have hmem : l ∈ tokenize source := by simp [h, hl]
    have hplain := isBoundary_of_mem_tokenize hmem
    rw [Lexeme.isBoundary, hk] at hplain
    cases hplain
  obtain ⟨st₁, st₂, x, v, hbefore, hgroup⟩ := exists_run_group h hne hdir
  obtain ⟨y, hy, hstart⟩ := hbefore.exists_append
  obtain ⟨x', hx', hstop⟩ := hgroup.exists_append
  obtain rfl : x = x' := append_cancel_right hx'
  rw [Nat.zero_add] at hstart
  have htext : spanText? source g = some (slice (groupStart g) (groupStop g) source) := by
    obtain ⟨l, f, rfl⟩ := exists_cons_of_ne_nil hne
    simp [spanText?, groupStart, groupStop, getLast?_cons]
  have hlast : ∀ l ∈ g.getLast?, l.stop = groupStop g := by
    intro l hl
    rw [groupStop, Option.mem_def.mp hl]
    rfl
  have hst : st₁.delimiter = none := hbefore.delimiter_eq_of_statement
  refine ⟨x, ?_, ?_⟩
  · rw [htext, hstop, hstart, hy, slice_append]
  · rw [← hgroup.scanFrom_cut hst (fun h => absurd h hne) hlast, tokenize, ← scanFrom_add]
    exact scanFrom_congr rfl hst _ _

/-! ## Dotted names -/

/-- Names with dots between them, and the names alone. -/
inductive IsChain : List Lexeme → List Lexeme → Prop
  | single {name : Lexeme} (hname : name.isPlainName) : IsChain [name] [name]
  | cons {name dot : Lexeme} {ls names : List Lexeme} (hname : name.isPlainName)
      (hdot : dot.isSymbol '.') (h : IsChain ls names) :
      IsChain (name :: dot :: ls) (name :: names)

/-- A character of a dotted name in which white space may stand around the dots. -/
def isChainChar (c : Char) : Bool := isBlank c || c == '.' || isAsciiAlnum c || c == '_'

lemma Lexeme.isSimple_of_isPlainName (h : l.isPlainName) (hne : l.text ≠ []) :
    isSimple l.text := by
  rw [isSimple, Bool.and_eq_true, all_eq_true]
  exact ⟨by simpa using hne, fun c hc => isSimpleChar_of_isPlain ((isPlainName_iff.mp h).2.1 c hc)⟩

lemma Lexeme.text_ne_sharp_of_isPlainName (h : l.isPlainName) : l.text ≠ ['#'] := by
  intro hl
  have hc := (isPlainName_iff.mp h).2.1 '#' (by simp [hl])
  exact absurd hc (by decide)

/-- The gaps of a dotted name are white space, because comments have other characters. -/
lemma isBlank_of_filler {after : Text} (h : Filler g after)
    (hg : ∀ c ∈ g, isChainChar c) : ∀ c ∈ g, isBlank c := by
  induction h with
  | nil => simp
  | blank hc _ ih =>
    rw [forall_mem_cons] at hg ⊢
    exact ⟨hc, ih hg.2⟩
  | @comment k g after hk _ _ =>
    generalize g ++ after = rest at hk
    cases hk <;> exact absurd (hg _ mem_cons_self) (by decide)

lemma trim_padded {p r : Text} (hg : ∀ c ∈ g, isBlank c) (hp : isSimple p)
    (hr : ∀ c ∈ r, isBlank c) : trim (g ++ (p ++ r)) = p := by
  have hstart : trimStart (g ++ (p ++ r)) = p ++ r := by
    obtain ⟨c, p, rfl⟩ := exists_cons_of_ne_nil (ne_nil_of_isSimple hp)
    have hc := not_isBlank_of_isSimpleChar (isSimpleChar_of_mem hp mem_cons_self)
    rw [cons_append, trimStart_append_cons hc, trimStart_of_blank hg, nil_append]
  have hend : trimEnd (p ++ r) = p := by
    obtain ⟨q, c, rfl⟩ := (eq_nil_or_concat' p).resolve_left (ne_nil_of_isSimple hp)
    have hc := not_isBlank_of_isSimpleChar (isSimpleChar_of_mem hp (c := c) (by simp))
    have hr' : trimEnd r = [] := by
      have hreverse : r.reverse.dropWhile isBlank = [] := trimStart_of_blank (by simpa using hr)
      rw [trimEnd, hreverse, reverse_nil]
    rw [append_assoc, singleton_append, trimEnd_append_cons hc, hr']
  rw [trim, hstart, hend]

lemma segmentsFrom_padded {p r u : Text} {ps : List Text} (hg : ∀ c ∈ g, isBlank c)
    (hp : isSimple p) (hr : ∀ c ∈ r, isBlank c)
    (hu : segmentsFrom none u = [] :: ps) :
    (segmentsFrom none (g ++ (p ++ (r ++ u)))).map trim = p :: ps.map trim := by
  have hblank {c : Char} (hc : isBlank c) : c ∉ ['.', '"', '`', '[', ']'] := by
    have hmarks : ∀ d ∈ ['.', '"', '`', '[', ']'], isBlank d = false := by decide
    exact fun hmem => Bool.false_ne_true ((hmarks c hmem).symm.trans hc)
  have hall : ∀ c ∈ g ++ (p ++ r), c ∉ ['.', '"', '`', '[', ']'] := by
    rw [forall_mem_append, forall_mem_append]
    exact ⟨fun c hc => hblank (hg c hc),
      fun c hc hmem => ne_of_isSimpleChar (isSimpleChar_of_mem hp hc) hmem rfl,
      fun c hc => hblank (hr c hc)⟩
  have hsegments := segmentsFrom_append_of_notMem hall hu
  rw [append_nil, append_assoc, append_assoc] at hsegments
  rw [hsegments, map_cons, trim_padded hg hp hr]

lemma IsChain.exists_cons (h : IsChain ls names) :
    ∃ name more, ls = name :: more ∧ name.isPlainName = true := by
  cases h with
  | single hname => exact ⟨_, _, rfl, hname⟩
  | cons hname _ _ => exact ⟨_, _, rfl, hname⟩

lemma IsChain.of_mem (h : IsChain ls names) (hl : l ∈ names) : l ∈ ls ∧ l.isPlainName = true := by
  induction h with
  | single hname =>
    obtain rfl := mem_singleton.mp hl
    exact ⟨hl, hname⟩
  | cons hname _ _ ih =>
    rcases mem_cons.mp hl with rfl | hl
    · exact ⟨mem_cons_self, hname⟩
    · exact ⟨mem_cons_of_mem _ (mem_cons_of_mem _ (ih hl).1), (ih hl).2⟩

/-- **The segments of a dotted name** are its names, with white space around them. -/
lemma IsChain.map_trim_segments (h : IsChain ls names) {offset : Nat} (hlayout : Layout offset t ls)
    (ht : ∀ c ∈ t, isChainChar c = true) : (segments t).map trim = names.map (·.text) := by
  induction h generalizing offset t with
  | @single name hname =>
    obtain - | @⟨_, g, r, _, _, hg, hne, -, hrest⟩ := hlayout
    obtain @⟨_, r, hr⟩ := hrest
    rw [forall_mem_append, forall_mem_append] at ht
    have hsegments := segmentsFrom_padded (isBlank_of_filler hg ht.1)
      (isSimple_of_isPlainName hname hne) (isBlank_of_filler hr ht.2.2) (u := []) rfl
    rwa [append_nil] at hsegments
  | @cons name dot ls names hname hdot h ih =>
    obtain - | @⟨_, g, r, _, _, hg, hne, -, hrest⟩ := hlayout
    obtain - | @⟨_, g', r', _, _, hg', -, -, hrest'⟩ := hrest
    obtain ⟨-, hdot⟩ := isSymbol_iff.mp hdot
    rw [hdot] at ht hg' ⊢
    simp only [forall_mem_append] at ht
    obtain ⟨hgc, -, hgc', -, htail⟩ := ht
    have hu : segmentsFrom none ('.' :: r') = [] :: segments r' := by
      rw [segmentsFrom, if_pos rfl, segments]
    rw [segments, singleton_append, segmentsFrom_padded (isBlank_of_filler hg hgc)
      (isSimple_of_isPlainName hname hne) (isBlank_of_filler hg' hgc') hu,
      ih hrest' htail, map_cons]

lemma IsChain.chainLength_eq (h : IsChain ls names)
    (hrest : chainLength rest = 0) : chainLength (ls.tail ++ rest) = ls.tail.length := by
  induction h with
  | single => exact hrest
  | @cons name dot ls names _ hdot h ih =>
    obtain ⟨next, more, rfl, hnext⟩ := h.exists_cons
    have hname : next.isName = true := by
      simp [isName, (isPlainName_iff.mp hnext).1]
    rw [tail_cons] at ih
    simp only [tail_cons, cons_append, chainLength, hdot, hname, Bool.and_self, if_true,
      ih, length_cons]
    omega

lemma IsChain.withoutFinalSharp_eq (h : IsChain ls names) : withoutFinalSharp ls = ls := by
  induction h with
  | @single name hname =>
    rw [withoutFinalSharp_cons fun _ => text_ne_sharp_of_isPlainName hname]
    rfl
  | @cons name dot ls names hname hdot h ih =>
    obtain ⟨next, more, rfl, -⟩ := h.exists_cons
    rw [withoutFinalSharp_cons (by simp), withoutFinalSharp_cons (by simp), ih]

/-- **The object that a dotted name stands for.** -/
lemma IsChain.readName?_eq
    (hchain : IsChain ls (names ++ [name])) (h : tokenize source = ks ++ (ls ++ rest))
    (htext : ∀ t ∈ spanText? source ls, ∀ c ∈ t, isChainChar c = true)
    (hrest : chainLength rest = 0) : readName? source (ls ++ rest) =
      some (⟨if names.isEmpty then none else some (String.ofList (join ['.'] (names.map (·.text)))),
        String.ofList name.text⟩, rest) := by
  obtain ⟨first, more, rfl, hfirst⟩ := hchain.exists_cons
  obtain ⟨x, hx, hscan⟩ := exists_spanText? h (cons_ne_nil _ _)
  rw [hchain.withoutFinalSharp_eq] at hscan
  -- the chain as it is written
  have hread : readChain? source (first :: more ++ rest) = some (x, rest) := by
    have hlength : chainLength (more ++ rest) = more.length := hchain.chainLength_eq hrest
    have hname : first.isName = true := by
      simp [isName, (isPlainName_iff.mp hfirst).1]
    have hslice : slice first.start (more.getLast?.getD first).stop source = x := by
      simpa [spanText?, getLast?_cons] using hx
    simp [readChain?, hname, hlength, hslice]
  -- its segments are the names
  have hlayout : Layout (groupStart (first :: more) + 0) x (first :: more) := by
    have hlayout := layout_scanFrom false {} (groupStart (first :: more) + 0) x
    rwa [scanFrom_add, ← tokenize, hscan] at hlayout
  have hsegments := hchain.map_trim_segments hlayout (htext x hx)
  have hsimple : ∀ p ∈ (names ++ [name]).map (·.text), isSimple p = true := by
    rw [forall_mem_map]
    intro l hl
    obtain ⟨hmem, hplain⟩ := hchain.of_mem hl
    have hsource : l ∈ tokenize source := by
      rw [h]
      exact mem_append_right _ (mem_append_left _ hmem)
    exact isSimple_of_isPlainName hplain
      ((lossless_scanFrom false {} source).ne_nil l hsource)
  rw [map_append, map_singleton] at hsimple hsegments
  have hstrip : (segments x).filterMap stripQuotes? = names.map (·.text) ++ [name.text] := by
    rw [← hsegments]
    refine filterMap_eq_map_iff_forall_eq_some.mpr fun s hs => stripQuotes?_of_trim ?_
    exact hsimple _ (hsegments ▸ mem_map_of_mem hs)
  have hbare := fun v hv => isBare_of_isSimple (hsimple v hv)
  have hname := QualifiedName.ofChain?_eq_ofValues hstrip hbare
    (dot_notMem_of_isSimple (hsimple _ (by simp)))
  rw [QualifiedName.ofValues_eq hbare, isEmpty_map] at hname
  rw [readName?, hread, Option.bind_eq_bind, Option.bind_some]
  dsimp only
  rw [hname]
  rfl

/-! ## Members -/

lemma tokenize_create (t : Text) : tokenize ("CREATE ".toList ++ t) =
    ⟨.word, "CREATE".toList, 0⟩ :: (tokenize t).map (shift 7) := by
  have hcreate := tokenize_word (w := "CREATE".toList) (v := ' ' :: t) (by decide) (by decide) rfl
  rwa [tokenize_space, map_shift_map_shift] at hcreate

lemma chainLength_append_cons (hl : l.isSymbol '.' = false)
    (h : chainLength (ls ++ [l]) = 0) : chainLength (ls ++ l :: rest) = 0 := by
  rcases ls with _ | ⟨dot, _ | ⟨name, ls⟩⟩
  · cases rest <;> simp [chainLength, hl]
  · simp only [singleton_append, chainLength] at h ⊢
    split_ifs at h ⊢
    · omega
    · rfl
  · simp only [cons_append, chainLength] at h ⊢
    split_ifs at h ⊢
    · omega
    · rfl

/-- **A routine of one name** is read with that name and the kind that stands before it. -/
lemma readSignature?_plain {verb kind : Lexeme} {more : List Lexeme}
    {routine : RoutineKind} (h : tokenize source = verb :: kind :: name :: more)
    (hverb : verb.isWord "CREATE" = true) (hkind : routineWord? kind = some routine)
    (hname : name.isPlainName = true) (hmore : chainLength more = 0) :
    readSignature? source = some (signatureBehind source routine false false
      ⟨none, String.ofList name.text⟩ (parametersAtFront source (behindRoutineNumber more))) := by
  have hread : readName? source (name :: more) = some (⟨none, String.ofList name.text⟩, more) := by
    have hspan : spanText? source [name] = some name.text := by
      have hmem : name ∈ tokenize source := by simp [h]
      exact congrArg some ((lossless_scanFrom false {} source).slice_eq name hmem)
    have htext : ∀ t ∈ spanText? source [name], ∀ c ∈ t, isChainChar c = true := by
      rw [hspan]
      rintro t ⟨⟩ c hc
      rw [isChainChar, Bool.or_assoc, (isPlainName_iff.mp hname).2.1 c hc, Bool.or_true]
    have hchain : IsChain [name] ([] ++ [name]) := .single hname
    exact hchain.readName?_eq (show _ = [verb, kind] ++ ([name] ++ more) from h) htext hmore
  -- the name is no `IF`, so no condition is looked for
  have hif : behindIfExists (name :: more) = name :: more := by
    have hif : name.isAnyWord ["IF"] = false :=
      isAnyWord_eq_false_of_isPlainName hname (by decide)
    have hword : name.isWord "IF" = false := by simpa [isAnyWord, isWord] using hif
    simp [behindIfExists, hword]
  have hor : startsOrReplace (kind :: name :: more) = false := by
    have hkind' : kind.isWord "OR" = false := by
      by_contra hor
      obtain ⟨hk, hu⟩ := isWord_iff.mp (by simpa using hor)
      rw [routineWord?_eq hk, hu] at hkind
      exact absurd hkind (by simp)
    simp [startsOrReplace, hkind']
  have hverb' : verb.isWord (if false then "ALTER" else "CREATE") = true := hverb
  rw [readSignature?_eq_bind h hverb', hor]
  simp [routineWindow, behindRoutineWord?, hkind, hif, hread]

namespace Member

variable {m : Member} (hm : m.IsFramed)

include hm

lemma IsFramed.withoutFinalSharp_lexemes : withoutFinalSharp m.lexemes = m.lexemes := by
  have hlast : m.last.text ≠ ['#'] := by
    intro htext
    have hupper := (isWord_iff.mp hm.is_last).2
    rw [Lexeme.upper, htext] at hupper
    exact absurd hupper (by decide)
  have hfinal : ∀ l ∈ m.lexemes.getLast?, l.text ≠ ['#'] := by
    intro l hl
    cases hlabel : m.label with
    | none =>
      simp [lexemes, tail, block, hlabel, getLast?_cons] at hl
      exact hl ▸ hlast
    | some label =>
      simp [lexemes, tail, block, hlabel, getLast?_cons] at hl
      exact hl ▸ text_ne_sharp_of_isPlainName (hm.is_label label hlabel)
  unfold withoutFinalSharp
  cases hl : m.lexemes.getLast? with
  | none => rfl
  | some l => simp [hfinal l hl]

lemma IsFramed.exists_routineWord? : ∃ kind, routineWord? m.kind = some kind := by
  have hkind := hm.is_kind
  rw [routineWord?_eq (kind_of_isAnyWord hkind)]
  simp only [isAnyWord, Bool.and_eq_true, contains_iff_mem, mem_cons,
    not_mem_nil, or_false] at hkind
  rcases hkind.2 with h | h <;> simp [h]

/-- **A member is read as a routine of its own**, unless its header continues its name. -/
lemma IsFramed.exists_readSignature? (hname : chainLength (m.header ++ [m.link]) = 0)
    (h : tokenize source = ks ++ (m.lexemes ++ rest)) : ∃ t s, spanText? source m.lexemes = some t ∧
      readSignature? ("CREATE ".toList ++ t) = some s ∧ routineWord? m.kind = some s.kind ∧
      s.alter = false ∧ s.name = ⟨none, String.ofList m.name.text⟩ := by
  obtain ⟨t, ht, hscan⟩ := exists_spanText? h (cons_ne_nil _ _)
  rw [hm.withoutFinalSharp_lexemes, lexemes, tail] at hscan
  -- the lexemes of the member by itself
  obtain ⟨kind, ls, hls, hkind, hscan⟩ := map_eq_cons_iff.mp hscan
  obtain ⟨name, more, rfl, hnamed, hmore⟩ := map_eq_cons_iff.mp hscan
  have hcreate := tokenize_create t
  rw [hls, map_cons, map_cons] at hcreate
  obtain ⟨routine, hroutine⟩ := hm.exists_routineWord?
  have hword : routineWord? (kind.shift 7) = some routine := by
    rw [← hroutine, ← hkind]
    rfl
  have hplain : (name.shift 7).isPlainName = true := by
    have hplain := hm.is_name
    rwa [← hnamed] at hplain
  -- nothing continues the name
  have hchain : chainLength (more.map (shift 7)) = 0 := by
    have hlink : m.link.isSymbol '.' = false := by
      simp [isSymbol, kind_of_isAnyWord hm.is_link]
    have hlength : chainLength (m.header ++ m.link :: (m.declarations ++ m.block)) = 0 :=
      chainLength_append_cons hlink hname
    rw [← hmore, chainLength_map_shift] at hlength
    rwa [chainLength_map_shift]
  refine ⟨t, _, ht, readSignature?_plain hcreate (by decide) hword hplain hchain, hroutine, rfl, ?_⟩
  rw [← hnamed]
  rfl

end Member

lemma HoldsMembers.exists_append (h : HoldsMembers ls ms)
    {m : Member} (hm : m ∈ ms) : m.IsMember ∧ ∃ ks rest, ls = ks ++ (m.lexemes ++ rest) := by
  induction h with
  | nil => cases hm
  | @plain item ls semi ms _ _ _ ih =>
    obtain ⟨hmember, ks, rest, rfl⟩ := ih hm
    exact ⟨hmember, item ++ semi :: ks, rest, by simp⟩
  | @forward kind name semi header ls ms _ _ _ _ _ ih =>
    obtain ⟨hmember, ks, rest, rfl⟩ := ih hm
    exact ⟨hmember, kind :: name :: (header ++ semi :: ks), rest, by simp⟩
  | @member m' ls semi ms hm' _ _ ih =>
    rcases mem_cons.mp hm with rfl | hm
    · exact ⟨hm', [], semi :: ls, rfl⟩
    · obtain ⟨hmember, ks, rest, rfl⟩ := ih hm
      exact ⟨hmember, m'.lexemes ++ semi :: ks, rest, by simp⟩

/-! ## Packages -/

/-- The parts of a package: the words in front, its name, the `IS` or `AS` behind it, what stands in
it, its `END` and what follows. -/
structure PackageParts where
  head : List Lexeme
  chain : List Lexeme
  link : Lexeme
  contents : List Lexeme
  last : Lexeme
  rest : List Lexeme

namespace PackageParts

/-- The lexemes of a package. -/
def lexemes (p : PackageParts) : List Lexeme :=
  p.head ++ (p.chain ++ p.link :: (p.contents ++ p.last :: p.rest))

/-- How the parts of a package are put together, the name of which is qualified by `schema`. Between
the names of the package and the dots may stand white space. -/
structure IsPackage (p : PackageParts) (source : Text) (schema : List Lexeme) (name : Lexeme)
    (members : List Member) : Prop where
  scanned : tokenize source = p.lexemes
  spells : ∃ ws ∈ packageHeads, Spells p.head ws
  is_chain : IsChain p.chain (schema ++ [name])
  chain_text : ∀ t ∈ spanText? source p.chain, ∀ c ∈ t, isChainChar c = true
  is_link : p.link.isAnyWord ["IS", "AS"] = true
  holds : HoldsMembers p.contents members
  is_last : p.last.isWord "END" = true

end PackageParts

/-- What is reported of a member: its kind, its name behind that of the package, and what its own
text says when it is read as a routine that is created. -/
structure Member.IsReadAs (source : Text) (package : Package) (m : Member) (s : Signature) :
    Prop where
  kind : routineWord? m.kind = some s.kind
  name : s.name =
    ⟨package.name.schema, package.name.name ++ "." ++ String.ofList m.name.text⟩
  orReplace : s.orReplace = package.orReplace
  alter : s.alter = false
  text : ∃ t r, spanText? source m.lexemes = some t ∧
    readSignature? ("CREATE ".toList ++ t) = some r ∧
    s = r.inPackage package.name package.orReplace

namespace PackageParts.IsPackage

variable {p : PackageParts} {source : Text} {schema : List Lexeme} {name : Lexeme}
  {members : List Member} (h : p.IsPackage source schema name members)

include h

lemma exists_head : ∃ init body, p.head = init ++ [body] ∧ body.isWord "BODY" = true ∧
    (∀ l ∈ init, l.isWord "BODY" = false) ∧ init.length < 8 ∧
    init.any (·.isAnyWord ["REPLACE", "ALTER"]) = p.head.any (·.isWord "REPLACE") := by
  obtain ⟨ws, hws, hspells⟩ := h.spells
  generalize p.head = head at hspells
  simp only [packageHeads, mem_cons, not_mem_nil, or_false] at hws
  rcases hws with rfl | rfl
  · rcases hspells with _ | ⟨h₁, _ | ⟨h₂, _ | ⟨h₃, ⟨⟩⟩⟩⟩
    refine ⟨[_, _], _, rfl, h₃, ?_⟩
    simp only [isWord_iff] at h₁ h₂ h₃
    simp [isWord, isAnyWord, h₁, h₂, h₃]
  · rcases hspells with _ | ⟨h₁, _ | ⟨h₂, _ | ⟨h₃, _ | ⟨h₄, _ | ⟨h₅, ⟨⟩⟩⟩⟩⟩⟩
    refine ⟨[_, _, _, _], _, rfl, h₅, ?_⟩
    simp only [isWord_iff] at h₁ h₂ h₃ h₄ h₅
    simp [isWord, isAnyWord, h₁, h₂, h₃, h₄, h₅]

lemma readPackage?_eq : ∃ q : QualifiedName, q = ⟨if schema.isEmpty then none
      else some (String.ofList (join ['.'] (schema.map (·.text)))), String.ofList name.text⟩ ∧
    readPackage? source = some ⟨q, p.head.any (·.isWord "REPLACE"),
      ((members.map Member.lexemes).filterMap (readMember? source)).map
        (·.inPackage q (p.head.any (·.isWord "REPLACE")))⟩ := by
  obtain ⟨init, body, hhead, hbody, hinit, hlength, hreplace⟩ := h.exists_head
  have hscan : tokenize source =
      init ++ body :: (p.chain ++ p.link :: (p.contents ++ p.last :: p.rest)) := by
    rw [h.scanned, PackageParts.lexemes, hhead, append_assoc, singleton_append]
  have hheader : ((tokenize source).take 8).takeWhile (!·.isWord "BODY") = init := by
    obtain ⟨k, hk⟩ := Nat.exists_eq_add_of_lt hlength
    rw [hscan, hk, Nat.add_assoc, take_length_add_append, take_succ_cons,
      takeWhile_append_of_pos fun l hl => by simp [hinit l hl]]
    simp [hbody]
  have hbehind : behindWord? "BODY" 8 (tokenize source) =
      some (p.chain ++ p.link :: (p.contents ++ p.last :: p.rest)) := by
    rw [hscan, behindWord?_append hinit hbody, if_pos hlength]
  have hlink : p.link.isSymbol '.' = false := by
    simp [isSymbol, kind_of_isAnyWord h.is_link]
  have hstop : chainLength (p.link :: (p.contents ++ p.last :: p.rest)) = 0 := by
    rw [← nil_append (p.link :: _)]
    exact chainLength_append_cons hlink rfl
  have hname := h.is_chain.readName?_eq h.scanned h.chain_text hstop
  have hdrop : (p.link :: (p.contents ++ p.last :: p.rest)).dropWhile (!·.isAnyWord ["AS", "IS"]) =
      p.link :: (p.contents ++ p.last :: p.rest) := by
    have his : p.link.isAnyWord ["AS", "IS"] = true := by
      have his := h.is_link
      simp only [isAnyWord, Bool.and_eq_true, contains_iff_mem, mem_cons,
        not_mem_nil, or_false] at his ⊢
      exact ⟨his.1, his.2.symm⟩
    exact dropWhile_cons_of_neg (by simp [his])
  have hplain : ∀ l ∈ p.contents, l.isBoundary = false := by
    intro l hl
    exact isBoundary_of_mem_tokenize (t := source) (by simp [hscan, hl])
  have hruns := h.holds.memberRuns_eq hplain h.is_last p.rest
  refine ⟨_, rfl, ?_⟩
  unfold readPackage?
  simp only [hheader, hreplace]
  rw [hbehind]
  simp only [Option.bind_eq_bind, Option.bind_some, hname, hdrop, hruns]
  rfl

lemma exists_readMember? {m : Member} (hm : m ∈ members)
    (hname : chainLength (m.header ++ [m.link]) = 0) (package : Package) :
    ∃ s, readMember? source m.lexemes = some s ∧
      m.IsReadAs source package (s.inPackage package.name package.orReplace) := by
  obtain ⟨hmember, ks, rest, hcontents⟩ := h.holds.exists_append hm
  have hscan : tokenize source = (p.head ++ (p.chain ++ p.link :: ks)) ++
      (m.lexemes ++ (rest ++ p.last :: p.rest)) := by
    rw [h.scanned, PackageParts.lexemes, hcontents]
    simp
  obtain ⟨t, s, ht, hs, hkind, halter, hsname⟩ := hmember.exists_readSignature? hname hscan
  have hread : readMember? source m.lexemes = some s := by
    rw [readMember?, ht]
    exact hs
  refine ⟨s, hread, hkind, ?_, rfl, halter, t, s, ht, hs, rfl⟩
  rw [Signature.inPackage, hsname]

end PackageParts.IsPackage

lemma forall₂_filterMap {f : List Lexeme → Option Signature} {g : Signature → Signature}
    {R : Member → Signature → Prop} (h : ∀ m ∈ ms, ∃ s, f m.lexemes = some s ∧ R m (g s)) :
    List.Forall₂ R ms (((ms.map Member.lexemes).filterMap f).map g) := by
  induction ms with
  | nil => exact .nil
  | cons m ms ih =>
    rw [forall_mem_cons] at h
    obtain ⟨⟨s, hs, hR⟩, h⟩ := h
    rw [map_cons, filterMap_cons_some hs, map_cons]
    exact .cons hR (ih h)

/-- **A package is read with exactly its members.** Every member of a package is reported, in their
order, and nothing else is: neither the members that are nested in others nor those without a body.
A member has its own kind and name and the schema of the package, and is replaced if the package is.

The header of a member must not continue its name with a dot and a name.

**Proof sketch.** The members are found by their lexemes (`HoldsMembers.memberRuns_eq`), and each
of them is read from its text (`Member.IsFramed.exists_readSignature?`). -/
theorem readPackage?_members {p : PackageParts} {source : Text} {schema : List Lexeme}
    {name : Lexeme} {members : List Member} (h : p.IsPackage source schema name members)
    (hnames : ∀ m ∈ members, chainLength (m.header ++ [m.link]) = 0) :
    ∃ package, readPackage? source = some package ∧
      package.name = ⟨if schema.isEmpty then none
        else some (String.ofList (join ['.'] (schema.map (·.text)))), String.ofList name.text⟩ ∧
      package.orReplace = p.head.any (·.isWord "REPLACE") ∧
      List.Forall₂ (Member.IsReadAs source package) members package.members := by
  obtain ⟨q, hq, hread⟩ := h.readPackage?_eq
  refine ⟨_, hread, hq, rfl, ?_⟩
  exact forall₂_filterMap fun m hm => h.exists_readMember? hm (hnames m hm) _

end Reading

def spacedLexemes (start : Nat) : List String → List Lexeme
  | [] => []
  | w :: ws =>
    let kind := if w.toList.all isTagChar then LexemeKind.word else .symbol
    ⟨kind, w.toList, start⟩ :: spacedLexemes (start + byteLength w.toList + 1) ws

namespace NestedPackage

/-- The words of a package with a declaration, a member without a body and two members, the first of
which holds another. -/
def words : List String :=
  ["CREATE", "OR", "REPLACE", "PACKAGE", "BODY", "hr", ".", "pay", "AS", "x", "INT", ";",
    "PROCEDURE", "a", ";", "FUNCTION", "f", "(", "p", "INT", ")", "RETURN", "INT", "IS",
    "PROCEDURE", "g", "IS", "BEGIN", "NULL", ";", "END", ";", "BEGIN", "RETURN", "p", ";", "END",
    "f", ";", "PROCEDURE", "a", "IS", "BEGIN", "NULL", ";", "END", ";", "END", "pay"]

def source : Text := join [' '] (words.map (·.toList))

def ls (i j : Nat) : List Lexeme := ((spacedLexemes 0 words).take j).drop i

def l (i : Nat) : Lexeme := (ls i (i + 1)).headD ⟨.symbol, [], 0⟩

def inner : Member := ⟨l 24, l 25, [], l 26, [], l 27, ls 28 30, l 30, none⟩

def outer : Member :=
  ⟨l 15, l 16, ls 17 23, l 23, inner.lexemes ++ [l 31], l 32, ls 33 36, l 36, some (l 37)⟩

def sibling : Member := ⟨l 39, l 40, [], l 41, [], l 42, ls 43 45, l 45, none⟩

def parts : PackageParts where
  head := ls 0 5
  chain := [l 5, l 6, l 7]
  link := l 8
  contents := ls 9 11 ++ l 11 :: (l 12 :: l 13 :: ([] ++ l 14 :: (outer.lexemes ++ l 38 ::
    (sibling.lexemes ++ [l 46]))))
  last := l 47
  rest := [l 48]

lemma isMember_outer : outer.IsMember :=
  { (by decide : outer.IsFramed) with
    is_declarations := .member (m := inner) (by decide) .nil (by decide) .nil }

lemma isMember_sibling : sibling.IsMember :=
  { (by decide : sibling.IsFramed) with is_declarations := .nil }

lemma holdsMembers_contents : HoldsMembers parts.contents [outer, sibling] :=
  have hheader : IsCalm headerStops [] := by decide
  .plain (by decide) (by decide) <|
    .forward (by decide) (by decide) hheader (by decide) <|
    .member isMember_outer (by decide) <| .member isMember_sibling (by decide) .nil

lemma isPackage_parts : parts.IsPackage source [l 5] (l 7) [outer, sibling] where
  scanned := by decide +kernel
  spells := ⟨_, mem_cons_of_mem _ mem_cons_self, by decide⟩
  is_chain := .cons (by decide) (by decide) (.single (by decide))
  chain_text := by decide
  is_link := by decide
  holds := holdsMembers_contents
  is_last := by decide

end NestedPackage

open NestedPackage in
/-- The member that is nested in another is not reported, and the one without a body is reported
once. -/
theorem readPackage?_members_nested :
    parts.IsPackage source [l 5] (l 7) [outer, sibling] ∧
      (∀ m ∈ [outer, sibling], chainLength (m.header ++ [m.link]) = 0) ∧
      ∃ package, readPackage? source = some package ∧
        package.name = ⟨some "hr", "pay"⟩ ∧ package.orReplace = true ∧
        List.Forall₂ (Member.IsReadAs source package) [outer, sibling] package.members := by
  have hnames : ∀ m ∈ [outer, sibling], chainLength (m.header ++ [m.link]) = 0 := by decide
  obtain ⟨package, hread, hname, hreplace, hall⟩ := readPackage?_members isPackage_parts hnames
  exact ⟨isPackage_parts, hnames, package, hread, hname.trans (by decide),
    hreplace.trans (by decide), hall⟩

namespace DottedPackage

def words : List String :=
  ["CREATE", "PACKAGE", "BODY", "p", "AS", "PROCEDURE", "a", ".", "b", "IS", "BEGIN", "NULL", ";",
    "END", ";", "END", "p"]

def source : Text := join [' '] (words.map (·.toList))

def l (i : Nat) : Lexeme := (spacedLexemes 0 words).getD i ⟨.symbol, [], 0⟩

def member : Member := ⟨l 5, l 6, [l 7, l 8], l 9, [], l 10, [l 11, l 12], l 13, none⟩

def parts : PackageParts :=
  ⟨[l 0, l 1, l 2], [l 3], l 4, member.lexemes ++ [l 14], l 15, [l 16]⟩

end DottedPackage

open DottedPackage in
/-- **The name of a member is read too far** if its header starts with a dot and a name: here the
name that is reported is not that of the member. -/
theorem readPackage?_dotted_header :
    parts.IsPackage source [] (l 3) [member] ∧ member.name.text = "a".toList ∧
      (readPackage? source).map (·.members.map (·.name)) = some [⟨none, "p.b"⟩] := by
  have hmember : member.IsMember :=
    { (by decide : member.IsFramed) with is_declarations := .nil }
  have hpackage : parts.IsPackage source [] (l 3) [member] :=
    ⟨by decide +kernel, ⟨_, mem_cons_self, by decide +kernel⟩, .single (by decide +kernel),
      by decide, by decide, .member hmember (by decide) .nil,
      by decide⟩
  exact ⟨hpackage, by decide +kernel, by decide +kernel⟩

end SqlOutline
