import OpcodeLens.Editor.Includes
import OpcodeLens.Proofs.Text.Position
import Mathlib.Data.List.Forall2

/-!
# Include links cover the included paths

The links of a document are found in one walk over its text, which jumps over each directive that
it finds.  Here the directives are described by themselves, as stretches of the text, and the walk
is shown to find those that do not lie inside another one.

* `Includes.Site` : a stretch of a text, and `Includes.Site.IsIn` : it is a directive.
* `Includes.inner?_eq_some_iff` : where the walk sees a directive.
* `Includes.Site.IsIn.stop_eq` : **two directives that overlap end with the same brace.**
* `Includes.exists_sites` : what the walk finds from a place on.
* `Includes.links_cover_paths` : **there is one link for each directive that lies in no other one,
  and it covers the path.**
-/

namespace OpcodeLens

namespace Includes

variable {text inner : Text}

/-! ### Directives -/

/-- Blanks, at least one, and some text that is not blank and has no closing brace: what stands
between the opening of a directive and its closing brace. -/
def Names (inner : Text) : Prop :=
  ∃ gap body, inner = gap ++ body ∧ gap ≠ [] ∧ (∀ c ∈ gap, Text.isBlank c = true) ∧
    '\x7d' ∉ body ∧ ∃ c ∈ body, Text.isBlank c = false

theorem Names.not_mem (h : Names inner) : '\x7d' ∉ inner := by
  obtain ⟨gap, body, rfl, -, hgap, hbody, -⟩ := h
  refine fun hmem => (List.mem_append.1 hmem).elim (fun hc => ?_) hbody
  exact absurd (hgap _ hc) (by decide)

theorem names_iff : Names inner ↔ '\x7d' ∉ inner ∧ inner.head?.any Text.isBlank = true ∧
    Text.isAllBlank inner = false := by
  constructor
  · intro h
    refine ⟨h.not_mem, ?_⟩
    obtain ⟨gap, body, rfl, hne, hgap, -, c, hc, hcblank⟩ := h
    obtain ⟨b, gap, rfl⟩ := List.exists_cons_of_ne_nil hne
    refine ⟨hgap b List.mem_cons_self, ?_⟩
    rw [Text.isAllBlank, List.all_eq_false]
    exact ⟨c, List.mem_append_right _ hc, by simp [hcblank]⟩
  · rintro ⟨hfree, hhead, hblank⟩
    rw [Text.isAllBlank, List.all_eq_false] at hblank
    obtain ⟨c, hc, hcblank⟩ := hblank
    cases inner with
    | nil => cases hc
    | cons b body =>
      have hb : Text.isBlank b = true := hhead
      have hcb : c ≠ b := fun heq => hcblank (heq ▸ hb)
      refine ⟨[b], body, rfl, List.cons_ne_nil b [], by simpa using hb, ?_, c, ?_, ?_⟩
      · exact fun hmem => hfree (List.mem_cons_of_mem b hmem)
      · exact (List.mem_cons.1 hc).resolve_left hcb
      · exact Bool.eq_false_iff.2 hcblank

theorem opening_free : '\x7d' ∉ opening := by decide

/-- The first closing brace decides where a directive ends. -/
theorem append_brace_inj {a b a' b' : Text} (ha : '\x7d' ∉ a) (ha' : '\x7d' ∉ a')
    (h : a ++ '\x7d' :: b = a' ++ '\x7d' :: b') : a = a' ∧ b = b' := by
  have hsplit := Text.splitFirst?_append ha b
  rw [h, Text.splitFirst?_append ha' b'] at hsplit
  cases hsplit
  exact ⟨rfl, rfl⟩

/-- **The walk sees a directive where there is one.** -/
theorem inner?_eq_some_iff : inner? text = some inner ↔
    ∃ after, text = opening ++ inner ++ '\x7d' :: after ∧ Names inner := by
  constructor
  · intro h
    unfold inner? at h
    split at h
    · cases h
    · next rest hrest =>
      dsimp only at h
      split_ifs at h with htest
      simp only [Bool.and_eq_true, decide_eq_true_eq, Bool.not_eq_true'] at htest
      obtain ⟨⟨hlength, hhead⟩, hblank⟩ := htest
      cases h
      have hsplit := List.takeWhile_append_dropWhile (p := fun c => decide (c ≠ '\x7d')) (l := rest)
      -- what is left after the text starts with the brace
      cases hdrop : rest.dropWhile fun c => decide (c ≠ '\x7d') with
      | nil =>
        rw [hdrop, List.append_nil] at hsplit
        rw [hsplit] at hlength
        exact absurd hlength (Nat.lt_irrefl _)
      | cons d after =>
        have hd := Text.head?_dropWhile_of_not (fun c => decide (c ≠ '\x7d')) rest d
          (by rw [hdrop]; rfl)
        obtain rfl : d = '\x7d' := by simpa using hd
        refine ⟨after, ?_, names_iff.2 ⟨fun hmem => ?_, hhead, hblank⟩⟩
        · rw [List.append_assoc, ← hdrop, hsplit]
          exact Text.dropHead?_eq_some_iff.1 hrest
        · simpa using List.mem_takeWhile_imp hmem
  · rintro ⟨after, rfl, hnames⟩
    obtain ⟨hfree, hhead, hblank⟩ := names_iff.1 hnames
    have hdrop : Text.dropHead? opening (opening ++ inner ++ '\x7d' :: after) =
        some (inner ++ '\x7d' :: after) :=
      Text.dropHead?_eq_some_iff.2 (List.append_assoc ..)
    have htake : (inner ++ '\x7d' :: after).takeWhile (fun c => decide (c ≠ '\x7d')) = inner := by
      refine Text.takeWhile_append_stop (fun c hc => decide_eq_true fun heq => ?_) (by simp)
      exact hfree (heq ▸ hc)
    unfold inner?
    rw [hdrop]
    dsimp only
    rw [htake, hhead, hblank]
    simp

/-! ### Sites -/

/-- A stretch of a text: what comes before it, what stands between its opening and its closing
brace, and what comes after it. -/
structure Site where
  /-- The text before it. -/
  before : Text
  /-- The text between the opening and the closing brace. -/
  inner : Text
  /-- The text after it. -/
  after : Text

namespace Site

/-- The whole stretch. -/
def written (s : Site) : Text := opening ++ s.inner ++ ['\x7d']

/-- Where it starts, in characters. -/
def start (s : Site) : Nat := s.before.length

/-- Where it ends, in characters. -/
def stop (s : Site) : Nat := (s.before ++ s.written).length

/-- There is a directive at the site. -/
structure IsIn (s : Site) (text : Text) : Prop where
  /-- The site is one of the text. -/
  text_eq : text = s.before ++ s.written ++ s.after
  /-- The directive names something. -/
  names : Names s.inner

/-- The site lies inside another one that starts earlier. -/
def Inside (s t : Site) : Prop := t.start < s.start ∧ s.stop ≤ t.stop

/-- There is a directive at the site that does not lie inside an earlier one. -/
def IsOutermost (s : Site) (text : Text) : Prop :=
  s.IsIn text ∧ ∀ t : Site, t.IsIn text → ¬ s.Inside t

/-- What is found at the site. -/
def directive (s : Site) : Directive :=
  let start := s.before.byteLength + opening.byteLength +
    Text.byteLength (s.inner.takeWhile Text.isBlank)
  ⟨⟨start, start + (Text.trim s.inner).byteLength⟩, Text.trim s.inner⟩

variable {s t : Site}

theorem stop_eq (s : Site) : s.stop = s.start + opening.length + s.inner.length + 1 := by
  simp only [stop, start, written, List.length_append, List.length_singleton]
  omega

theorem IsIn.eq_append (h : s.IsIn text) :
    text = s.before ++ (opening ++ s.inner ++ '\x7d' :: s.after) := by
  rw [h.text_eq, written]
  simp only [List.append_assoc, List.singleton_append]

theorem isIn_append {before rest after : Text} (hinner : Names inner)
    (hrest : rest = opening ++ inner ++ '\x7d' :: after) :
    IsIn ⟨before, inner, after⟩ (before ++ rest) where
  text_eq := by
    rw [hrest, written]
    simp only [List.append_assoc, List.singleton_append]
  names := hinner

theorem IsIn.free (h : s.IsIn text) : '\x7d' ∉ opening ++ s.inner :=
  fun hmem => (List.mem_append.1 hmem).elim opening_free h.names.not_mem

theorem IsIn.length_eq (h : s.IsIn text) : text.length = s.stop + s.after.length := by
  rw [h.text_eq, List.length_append, stop]

theorem start_lt_stop (s : Site) : s.start < s.stop := by
  rw [stop_eq]
  omega

/-- Of two directives that overlap, the later one is the rest of the earlier one. -/
theorem IsIn.exists_overlap (hs : s.IsIn text) (ht : t.IsIn text) (hle : s.start ≤ t.start)
    (hlt : t.start < s.stop) : ∃ mid, t.before = s.before ++ mid ∧
      opening ++ s.inner = mid ++ (opening ++ t.inner) ∧ s.after = t.after := by
  obtain ⟨mid, hmid⟩ : s.before <+: t.before :=
    List.prefix_of_prefix_length_le ⟨_, hs.eq_append.symm⟩ ⟨_, ht.eq_append.symm⟩ hle
  have hrest : opening ++ s.inner ++ '\x7d' :: s.after =
      mid ++ (opening ++ t.inner) ++ '\x7d' :: t.after := by
    have heq := hs.eq_append.symm.trans ht.eq_append
    rwa [← hmid, List.append_assoc s.before mid, List.append_cancel_left_eq,
      ← List.append_assoc mid] at heq
  -- the part between the two starts ends before the brace
  have hlength : mid.length ≤ (opening ++ s.inner).length := by
    rw [stop_eq, start, start, ← hmid, List.length_append] at hlt
    rw [List.length_append]
    omega
  have hsub : mid <+: opening ++ s.inner := by
    refine List.prefix_of_prefix_length_le ?_ ⟨_, hrest⟩ hlength
    rw [List.append_assoc]
    exact List.prefix_append _ _
  have hfree : '\x7d' ∉ mid ++ (opening ++ t.inner) := fun hmem =>
    (List.mem_append.1 hmem).elim (fun hc => hs.free (hsub.subset hc)) ht.free
  obtain ⟨hinner, hafter⟩ := append_brace_inj hs.free hfree hrest
  exact ⟨mid, hmid.symm, hinner, hafter⟩

/-- **Two directives that overlap end with the same brace.** -/
theorem IsIn.stop_eq (hs : s.IsIn text) (ht : t.IsIn text) (hle : s.start ≤ t.start)
    (hlt : t.start < s.stop) : t.stop = s.stop := by
  obtain ⟨mid, -, -, hafter⟩ := hs.exists_overlap ht hle hlt
  have hlength := hs.length_eq.symm.trans ht.length_eq
  rw [hafter] at hlength
  omega

/-- Where a directive starts says all about it. -/
theorem IsIn.eq_of_start_eq (hs : s.IsIn text) (ht : t.IsIn text) (h : s.start = t.start) :
    s = t := by
  obtain ⟨mid, hbefore, hinner, hafter⟩ :=
    hs.exists_overlap ht (Nat.le_of_eq h) (h ▸ s.start_lt_stop)
  obtain rfl : mid = [] := by
    have hlength := congrArg List.length hbefore
    rw [List.length_append] at hlength
    have : s.before.length = t.before.length := h
    exact List.eq_nil_of_length_eq_zero (by omega)
  rw [List.append_nil] at hbefore
  rw [List.nil_append, List.append_cancel_left_eq] at hinner
  cases s
  cases t
  cases hbefore
  cases hinner
  cases hafter
  rfl

end Site

/-! ### The walk -/

/-- There is a directive at the site, from a place of the text on, that lies inside no other one
from that place on. -/
def OutermostFrom (place : Nat) (text : Text) (s : Site) : Prop :=
  s.IsIn text ∧ place ≤ s.start ∧ ∀ t : Site, t.IsIn text → place ≤ t.start → ¬ s.Inside t

theorem outermostFrom_zero {s : Site} : OutermostFrom 0 text s ↔ s.IsOutermost text := by
  simp [OutermostFrom, Site.IsOutermost]

/-- A place where no directive starts can be left behind. -/
theorem outermostFrom_succ {place : Nat} {s : Site}
    (h : ∀ t : Site, t.IsIn text → t.start ≠ place) :
    OutermostFrom (place + 1) text s ↔ OutermostFrom place text s := by
  have hplace : ∀ t : Site, t.IsIn text → (place + 1 ≤ t.start ↔ place ≤ t.start) := by
    intro t ht
    have := h t ht
    omega
  constructor
  · rintro ⟨hs, hle, hout⟩
    exact ⟨hs, (hplace s hs).1 hle, fun t ht hlet => hout t ht ((hplace t ht).2 hlet)⟩
  · rintro ⟨hs, hle, hout⟩
    exact ⟨hs, (hplace s hs).2 hle, fun t ht hlet => hout t ht ((hplace t ht).1 hlet)⟩

/-- Of the directives from the start of one on, the outermost ones are that one and the outermost
ones from its end on. -/
theorem outermostFrom_start {s t : Site} (ht : t.IsIn text) :
    OutermostFrom t.start text s ↔ s = t ∨ OutermostFrom t.stop text s := by
  have hlt := t.start_lt_stop
  constructor
  · rintro ⟨hs, hle, hout⟩
    by_cases heq : t.start = s.start
    · exact .inl (hs.eq_of_start_eq ht heq.symm)
    · refine .inr ⟨hs, ?_, fun u hu hleu => hout u hu (by omega)⟩
      -- a directive that starts before the end lies inside
      by_contra hstop
      exact hout t ht (Nat.le_refl _) ⟨by omega, (ht.stop_eq hs hle (by omega)).le⟩
  · rintro (rfl | ⟨hs, hle, hout⟩)
    · exact ⟨ht, Nat.le_refl _, fun u _ hleu hinside => absurd hinside.1 (by omega)⟩
    · refine ⟨hs, by omega, fun u hu hleu hinside => ?_⟩
      by_cases hstop : u.start < t.stop
      · -- what starts before the end of the first one ends with it
        have := ht.stop_eq hu hleu hstop
        have := s.start_lt_stop
        have := hinside.2
        omega
      · exact hout u hu (by omega) hinside

theorem byteLength_concat {before : Text} {offset : Nat} (h : before.byteLength = offset)
    (c : Char) : Text.byteLength (before ++ [c]) = offset + c.utf8Size := by
  rw [Text.byteLength_append, h]
  rfl

/-- **What the walk finds**: the outermost directives from the place on at which it stands, in
order. -/
theorem exists_sites (offset skip : Nat) (rest before : Text)
    (hoffset : before.byteLength = offset) : ∃ sites : List Site,
      directivesFrom offset skip rest = sites.map Site.directive ∧
      (∀ s, s ∈ sites ↔ OutermostFrom (before.length + skip) (before ++ rest) s) ∧
      sites.Pairwise fun s t => s.stop ≤ t.start := by
  fun_induction directivesFrom offset skip rest generalizing before with
  | case1 offset skip =>
    refine ⟨[], rfl, fun s => iff_of_false List.not_mem_nil ?_, .nil⟩
    -- nothing starts behind the end
    rintro ⟨hs, hle, -⟩
    have hlength := hs.length_eq
    have := s.start_lt_stop
    rw [List.append_nil] at hlength
    omega
  | case2 offset c rest skip ih =>
    obtain ⟨sites, hsites, hmem, hpairwise⟩ := ih (before ++ [c]) (byteLength_concat hoffset c)
    refine ⟨sites, hsites, fun s => ?_, hpairwise⟩
    rw [hmem, List.append_assoc, List.singleton_append, List.length_append, List.length_singleton,
      Nat.add_assoc, Nat.add_comm 1 skip]
  | case3 offset c rest hnone ih =>
    obtain ⟨sites, hsites, hmem, hpairwise⟩ := ih (before ++ [c]) (byteLength_concat hoffset c)
    refine ⟨sites, hsites, fun s => ?_, hpairwise⟩
    rw [hmem, List.append_assoc, List.singleton_append, List.length_append, List.length_singleton]
    refine outermostFrom_succ fun t ht hstart => ?_
    have heq := List.append_inj_right ht.eq_append hstart.symm
    rw [inner?_eq_some_iff.2 ⟨t.after, heq, ht.names⟩] at hnone
    cases hnone
  | case4 offset c rest inner hsome start path ih =>
    obtain ⟨after, hrest, hnames⟩ := inner?_eq_some_iff.1 hsome
    have hin : Site.IsIn ⟨before, inner, after⟩ (before ++ c :: rest) :=
      Site.isIn_append hnames hrest
    obtain ⟨sites, hsites, hmem, hpairwise⟩ := ih (before ++ [c]) (byteLength_concat hoffset c)
    have hstop : (before ++ [c]).length + (opening.length + inner.length) =
        Site.stop ⟨before, inner, after⟩ := by
      rw [Site.stop_eq, Site.start, List.length_append, List.length_singleton]
      dsimp only
      omega
    rw [hstop, List.append_assoc, List.singleton_append] at hmem
    refine ⟨⟨before, inner, after⟩ :: sites, ?_, fun s => ?_, ?_⟩
    · rw [hsites, List.map_cons, Site.directive, hoffset]
    · rw [List.mem_cons, hmem]
      exact (outermostFrom_start hin).symm
    · exact List.pairwise_cons.2 ⟨fun s hs => ((hmem s).1 hs).2.1, hpairwise⟩

/-! ### Links -/

/-- The link covers the path that the directive at the site names: what stands between the opening
and the closing brace, without the blanks around it.  Its target is the path, seen from the folder
of the document. -/
def IsLinkOf (text document : Text) (s : Site) (link : Link) : Prop :=
  ∃ (gap path tail : Text) (bytes : ByteRange),
    s.inner = gap ++ path ++ tail ∧
    gap ≠ [] ∧ (∀ c ∈ gap, Text.isBlank c = true) ∧ (∀ c ∈ tail, Text.isBlank c = true) ∧
    path ≠ [] ∧ (∀ c ∈ path.head?, Text.isBlank c = false) ∧
    (∀ c ∈ path.getLast?, Text.isBlank c = false) ∧ '\x7d' ∉ path ∧
    bytes.start = (s.before ++ opening ++ gap).byteLength ∧ text.slice? bytes = some path ∧
    link.range = text.rangeOf bytes ∧
    text.offsetAt? link.range.start = some bytes.start ∧
    text.offsetAt? link.range.stop = some bytes.stop ∧
    link.target = FileUrl.ofPath? (Path.join ((Path.parent? document).getD document) path)

/-- The link for what is found. -/
def Directive.link (text document : Text) (d : Directive) : Link :=
  ⟨text.rangeOf d.bytes,
    FileUrl.ofPath? (Path.join ((Path.parent? document).getD document) d.path)⟩

theorem links_eq (text document : Text) :
    links text document = (directives text).map (Directive.link text document) := rfl

namespace Site

variable {s t : Site}

theorem IsIn.gap_ne_nil (h : s.IsIn text) : s.inner.takeWhile Text.isBlank ≠ [] := by
  obtain ⟨-, hhead, -⟩ := names_iff.1 h.names
  cases hinner : s.inner with
  | nil => simp [hinner] at hhead
  | cons b rest =>
    have hb : Text.isBlank b = true := by simpa [hinner] using hhead
    rw [List.takeWhile_cons_of_pos hb]
    exact List.cons_ne_nil _ _

theorem IsIn.path_ne_nil (h : s.IsIn text) : Text.trim s.inner ≠ [] := by
  obtain ⟨gap, body, hinner, -, -, -, c, hc, hblank⟩ := h.names
  intro hnil
  have hall := Text.trim_eq_nil_iff.1 hnil c (hinner ▸ List.mem_append_right gap hc)
  rw [hblank] at hall
  cases hall

/-- The text around the path of a directive. -/
theorem IsIn.exists_around (h : s.IsIn text) : ∃ tail,
    (∀ c ∈ tail, Text.isBlank c = true) ∧
    s.inner = s.inner.takeWhile Text.isBlank ++ Text.trim s.inner ++ tail ∧
    text = s.before ++ opening ++ s.inner.takeWhile Text.isBlank ++ Text.trim s.inner ++
      (tail ++ '\x7d' :: s.after) := by
  obtain ⟨tail, hinner, htail⟩ := Text.exists_eq_append_trim s.inner
  refine ⟨tail, htail, hinner, ?_⟩
  calc text = s.before ++ (opening ++ s.inner ++ '\x7d' :: s.after) := h.eq_append
    _ = s.before ++ (opening ++ (s.inner.takeWhile Text.isBlank ++ Text.trim s.inner ++ tail) ++
          '\x7d' :: s.after) := by rw [← hinner]
    _ = _ := by simp only [List.append_assoc]

theorem directive_bytes_start (s : Site) : s.directive.bytes.start =
    (s.before ++ opening ++ s.inner.takeWhile Text.isBlank).byteLength := by
  rw [directive, Text.byteLength_append, Text.byteLength_append]

theorem directive_bytes_stop (s : Site) : s.directive.bytes.stop =
    (s.before ++ opening ++ s.inner.takeWhile Text.isBlank ++ Text.trim s.inner).byteLength := by
  rw [Text.byteLength_append, ← directive_bytes_start, directive]

/-- **The link of a directive covers its path.** -/
theorem IsIn.isLinkOf (h : s.IsIn text) (document : Text) :
    IsLinkOf text document s (s.directive.link text document) := by
  obtain ⟨tail, htail, hinner, htext⟩ := h.exists_around
  obtain ⟨hfirst, hlast⟩ := Text.trim_eq_self_iff.1 (Text.trim_trim s.inner)
  refine ⟨_, _, tail, s.directive.bytes, hinner, h.gap_ne_nil,
    fun c hc => List.mem_takeWhile_imp hc, htail, h.path_ne_nil, hfirst, hlast,
    fun hmem => h.names.not_mem (Text.trim_subset _ hmem), s.directive_bytes_start, ?_, rfl, ?_, ?_,
    rfl⟩
  · have hslice := Text.slice?_append
      (s.before ++ opening ++ s.inner.takeWhile Text.isBlank) (Text.trim s.inner)
      (tail ++ '\x7d' :: s.after)
    rwa [← htext, ← Text.byteLength_append, ← directive_bytes_start, ← directive_bytes_stop]
      at hslice
  · have hstart := Text.offsetAt?_positionAt_append
      (s.before ++ opening ++ s.inner.takeWhile Text.isBlank)
      (Text.trim s.inner ++ (tail ++ '\x7d' :: s.after))
    rwa [← List.append_assoc, ← htext, ← directive_bytes_start] at hstart
  · have hstop := Text.offsetAt?_positionAt_append
      (s.before ++ opening ++ s.inner.takeWhile Text.isBlank ++ Text.trim s.inner)
      (tail ++ '\x7d' :: s.after)
    rwa [← htext, ← directive_bytes_stop] at hstop

/-- Both ends of a path are boundaries of the text, in order. -/
theorem IsIn.boundaries (h : s.IsIn text) : text.IsBoundary s.directive.bytes.start ∧
    text.IsBoundary s.directive.bytes.stop ∧
    s.directive.bytes.start < s.directive.bytes.stop := by
  obtain ⟨tail, -, -, htext⟩ := h.exists_around
  refine ⟨⟨_, _, htext.trans (List.append_assoc ..), s.directive_bytes_start.symm⟩,
    ⟨_, _, htext, s.directive_bytes_stop.symm⟩, ?_⟩
  have := List.length_pos_iff.2 h.path_ne_nil
  have := Text.length_le_byteLength (Text.trim s.inner)
  rw [directive_bytes_stop, Text.byteLength_append, ← directive_bytes_start]
  omega

/-- The path of a directive ends before that of a later one starts. -/
theorem IsIn.bytes_lt (hs : s.IsIn text) (ht : t.IsIn text) (hle : s.stop ≤ t.start) :
    s.directive.bytes.stop < t.directive.bytes.start := by
  obtain ⟨mid, hmid⟩ : s.before ++ s.written <+: t.before :=
    List.prefix_of_prefix_length_le ⟨_, hs.text_eq.symm⟩ ⟨_, ht.eq_append.symm⟩ hle
  obtain ⟨tail, -, hinner, -⟩ := hs.exists_around
  have hwritten : s.before ++ s.written = s.before ++ opening ++ s.inner.takeWhile Text.isBlank ++
      Text.trim s.inner ++ (tail ++ ['\x7d']) := by
    nth_rewrite 1 [written, hinner]
    simp only [List.append_assoc]
  have hbrace : Text.byteLength ['\x7d'] = 1 := by decide
  rw [directive_bytes_start t, ← hmid, hwritten]
  simp only [Text.byteLength_append, directive_bytes_stop, hbrace]
  omega

end Site

/-- **There is one link for each directive that lies in no other one, and it covers the path.**  The
directives that do not lie inside an earlier one follow one another in the text, and the links are
theirs, one by one and in order.  No two links overlap, and the positions of a text whose size fits
in a 32-bit word do so, too. -/
theorem links_cover_paths (text document : Text) (hsize : text.byteLength < UInt32.size) :
    (∃ sites : List Site, (∀ s, s ∈ sites ↔ s.IsOutermost text) ∧
      sites.Pairwise (fun s t => s.stop ≤ t.start) ∧
      List.Forall₂ (IsLinkOf text document) sites (links text document)) ∧
    (links text document).Pairwise (fun link next => link.range.stop < next.range.start) ∧
    ∀ link ∈ links text document, link.range.start < link.range.stop ∧
      ∀ p ∈ [link.range.start, link.range.stop],
        p.line < UInt32.size ∧ p.character < UInt32.size := by
  obtain ⟨sites, hsites, hmem, hpairwise⟩ := exists_sites 0 0 text [] rfl
  simp only [List.length_nil, Nat.add_zero, List.nil_append, outermostFrom_zero] at hmem
  have hin : ∀ s ∈ sites, s.IsIn text := fun s hs => ((hmem s).1 hs).1
  have hlinks : links text document =
      sites.map fun s => s.directive.link text document := by
    rw [links_eq, directives, hsites, List.map_map]
    rfl
  refine ⟨⟨sites, hmem, hpairwise, ?_⟩, ?_, ?_⟩
  · rw [hlinks, List.forall₂_map_right_iff, List.forall₂_same]
    exact fun s hs => (hin s hs).isLinkOf document
  · rw [hlinks, List.pairwise_map]
    refine hpairwise.imp_of_mem fun hs ht hle => ?_
    exact Text.strictMonoOn_positionAt text (hin _ hs).boundaries.2.1 (hin _ ht).boundaries.1
      ((hin _ hs).bytes_lt (hin _ ht) hle)
  · intro link hlink
    rw [hlinks, List.mem_map] at hlink
    obtain ⟨s, hs, rfl⟩ := hlink
    obtain ⟨hstart, hstop, hlt⟩ := (hin s hs).boundaries
    refine ⟨Text.strictMonoOn_positionAt text hstart hstop hlt, fun p hp => ?_⟩
    obtain ⟨offset, rfl⟩ : ∃ offset, p = text.positionAt offset := by
      rcases List.mem_pair.1 hp with rfl | rfl
      · exact ⟨_, rfl⟩
      · exact ⟨_, rfl⟩
    have := Text.positionAt_le text offset
    omega

/-- Two directives, the second of them with another opening in its path. -/
def nested : Text := "é\x7b$INCLUDE \n\ta b.txt \x7d\x7b$INCLUDE x\x7b$INCLUDE y\x7d".toList

/-- A directive inside another one has no link of its own. -/
theorem nested_include_covered : nested.byteLength < UInt32.size ∧
    (links nested "/d/m.txt".toList).map (·.range) = [⟨⟨1, 1⟩, ⟨1, 8⟩⟩, ⟨⟨1, 20⟩, ⟨1, 32⟩⟩] ∧
    ∃ sites : List Site, (∀ s, s ∈ sites ↔ s.IsOutermost nested) ∧ sites.length = 2 := by
  have hsize : nested.byteLength < UInt32.size := by decide
  obtain ⟨sites, hmem, -, hlinks⟩ := (links_cover_paths nested "/d/m.txt".toList hsize).1
  exact ⟨hsize, by decide, sites, hmem, hlinks.length_eq.trans (by decide)⟩

end Includes

end OpcodeLens
