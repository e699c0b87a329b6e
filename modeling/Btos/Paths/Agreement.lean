import Btos.Cmd.Path
import Btos.Paths.Safety

/-!
# Agreement of the path normalisers

Three functions bring a path into a normal form: `btos_path_parse` of the C library and of the
program loader, and `parse_path` of the shell. `cancel` is what they are for: empty and `.`
components are dropped, and each `..` is cancelled with the component in front of it. All three do
that to a path with a drive in which no `..` comes too early (`normalisers_agree`).
-/

open List Option

namespace Paths

open Buffer

/-! ## Cancelling components -/

/-- Neither empty nor `.` nor `..`. -/
def isOrdinary (s : Str) : Bool := s != [] && s != ['.'] && s != ['.', '.']

/-- A component behind others that are already in normal form. -/
def cancelStep (names : List Str) (s : Str) : List Str :=
  if s = ['.', '.'] then names.dropLast else if isOrdinary s then names ++ [s] else names

/-- The components that are left. -/
def cancel (comps : List Str) : List Str := comps.foldl cancelStep []

/-- No prefix has more `..` than ordinary components. -/
def Balanced (comps : List Str) : Prop :=
  ∀ front, front <+: comps → front.count ['.', '.'] ≤ front.countP isOrdinary

lemma Balanced.of_prefix {comps front : List Str} (h : Balanced comps)
    (hfront : front <+: comps) : Balanced front :=
  fun q hq => h q (hq.trans hfront)

lemma cancel_concat (front : List Str) (s : Str) :
    cancel (front ++ [s]) = cancelStep (cancel front) s := by
  simp [cancel]

variable {comps : List Str}

/-- Each `..` takes away one component. -/
lemma Balanced.length_cancel (h : Balanced comps) :
    (cancel comps).length + comps.count ['.', '.'] = comps.countP isOrdinary := by
  induction comps using reverseRecOn with
  | nil => rfl
  | append_singleton front s ih =>
    have hle := h _ prefix_rfl
    have hfront := ih (h.of_prefix (prefix_append _ _))
    rw [count_append, countP_append] at hle ⊢
    rw [cancel_concat, cancelStep]
    by_cases hup : s = ['.', '.']
    · subst hup
      have hone : [['.', '.']].count ['.', '.'] = 1 := by decide
      have hzero : [['.', '.']].countP isOrdinary = 0 := by decide
      rw [if_pos rfl, length_dropLast]
      omega
    · have hzero : [s].count ['.', '.'] = 0 := count_eq_zero.mpr (by simpa using Ne.symm hup)
      rw [if_neg hup]
      by_cases hordinary : isOrdinary s = true
      · simp [hordinary, hzero]
        omega
      · simp [hordinary, hzero]
        omega

lemma Balanced.cancel_ne_nil {front rest : List Str}
    (h : Balanced (front ++ ['.', '.'] :: rest)) : cancel front ≠ [] := by
  intro hnil
  have hle := h (front ++ [['.', '.']]) ⟨rest, by simp⟩
  have hlen := (h.of_prefix (prefix_append _ _)).length_cancel
  rw [count_append, countP_append] at hle
  have hone : [['.', '.']].count ['.', '.'] = 1 := by decide
  have hzero : [['.', '.']].countP isOrdinary = 0 := by decide
  rw [hnil, length_nil] at hlen
  omega

/-! ## Paths with a drive -/

/-- A character that means nothing to the normalisers. -/
def Plain (c : Char) : Prop := c ≠ ':' ∧ c ≠ '/' ∧ c ≠ '\n' ∧ c ≠ nul

/-- A name that a `..` may take away. -/
structure Name (s : Str) : Prop where
  ne_nil : s ≠ []
  plain : ∀ c ∈ s, Plain c

/-- A path with a drive. An empty component at the beginning is a slash behind the colon. -/
structure AbsolutePath where
  drive : Str
  comps : List Str
  name : Name drive
  plain : ∀ s ∈ comps, ∀ c ∈ s, Plain c
  short : ∀ s ∈ comps, s.length < maxSeglen
  balanced : Balanced comps

/-- The path as it is given. -/
def AbsolutePath.text (p : AbsolutePath) : Str := p.drive ++ ':' :: ['/'].intercalate p.comps

/-- The path in normal form. -/
def AbsolutePath.normal (p : AbsolutePath) : Str :=
  p.drive ++ ':' :: '/' :: ['/'].intercalate (cancel p.comps)

/-- A drive and names, with a slash behind each of them. -/
def behind (drive : Str) (names : List Str) : Str :=
  drive ++ ':' :: '/' :: (names.map (· ++ ['/'])).flatten

lemma behind_concat (drive : Str) (names : List Str) (s : Str) :
    behind drive (names ++ [s]) = behind drive names ++ (s ++ ['/']) := by
  simp [behind]

lemma exists_behind_eq (drive : Str) (names : List Str) : ∃ q, behind drive names = q ++ ['/'] := by
  cases names using reverseRecOn with
  | nil => exact ⟨drive ++ [':'], by simp [behind]⟩
  | append_singleton names s => exact ⟨behind drive names ++ s, by simp [behind_concat]⟩

lemma intercalate_concat (names : List Str) (s : Str) :
    ['/'].intercalate (names ++ [s]) = (names.map (· ++ ['/'])).flatten ++ s := by
  induction names with
  | nil => simp
  | cons n names ih =>
    obtain ⟨m, rest, hrest⟩ : ∃ m rest, names ++ [s] = m :: rest :=
      exists_cons_of_ne_nil (by simp)
    rw [cons_append, hrest, intercalate_cons_cons, ← hrest, ih]
    simp

lemma mem_intercalate {c : Char} (h : c ∈ ['/'].intercalate comps) :
    c = '/' ∨ ∃ s ∈ comps, c ∈ s := by
  cases comps using reverseRecOn with
  | nil => simp at h
  | append_singleton front s =>
    rw [intercalate_concat, mem_append, mem_flatten] at h
    rcases h with ⟨u, hu, hc⟩ | hc
    · obtain ⟨n, hn, rfl⟩ := mem_map.mp hu
      rcases mem_append.mp hc with hc | hc
      · exact .inr ⟨n, mem_append_left _ hn, hc⟩
      · exact .inl (mem_singleton.mp hc)
    · exact .inr ⟨s, by simp, hc⟩

variable {names : List Str} {s : Str}

lemma Name.of_mem_cancelStep (hnames : ∀ n ∈ names, Name n)
    (hs : ∀ c ∈ s, Plain c) : ∀ n ∈ cancelStep names s, Name n := by
  intro n hn
  unfold cancelStep at hn
  split_ifs at hn with hup hordinary
  · exact hnames n (mem_of_mem_dropLast hn)
  · rcases mem_append.mp hn with hn | hn
    · exact hnames n hn
    · obtain rfl := mem_singleton.mp hn
      refine ⟨?_, hs⟩
      rintro rfl
      simp [isOrdinary] at hordinary
  · exact hnames n hn

lemma Name.of_mem_cancel (h : ∀ s ∈ comps, ∀ c ∈ s, Plain c) : ∀ n ∈ cancel comps, Name n := by
  induction comps using reverseRecOn with
  | nil => simp [cancel]
  | append_singleton front s ih =>
    rw [cancel_concat]
    exact Name.of_mem_cancelStep (ih fun t ht => h t (mem_append_left _ ht)) (h s (by simp))

/-! ## The C library and the program loader -/

lemma upToSlash_append {q s : Str} (hs : ∀ c ∈ s, Plain c) :
    Layout.upToSlash (q ++ s) = Layout.upToSlash q := by
  induction s using reverseRecOn with
  | nil => rw [append_nil]
  | append_singleton s c ih =>
    have hc := (hs c (by simp)).2.1
    rw [← append_assoc, Layout.upToSlash_concat, if_neg hc,
      ih fun d hd => hs d (mem_append_left _ hd)]

variable {drive : Str}

/-- A `..` behind a name takes it away. -/
lemma up_behind_concat {n : Str} (hn : Name n) :
    Layout.up (behind drive (names ++ [n])) = behind drive names := by
  obtain ⟨q, hq⟩ := exists_behind_eq drive names
  obtain ⟨m, c, rfl⟩ : ∃ m c, n = m ++ [c] :=
    ⟨_, _, (dropLast_append_getLast hn.ne_nil).symm⟩
  have hc : c ≠ ':' := (hn.plain c (by simp)).1
  have htext : behind drive (names ++ [m ++ [c]]) = q ++ ['/'] ++ m ++ [c] ++ ['/'] := by
    simp [behind_concat, hq]
  have hget : (q ++ ['/'] ++ m ++ [c] ++ ['/'])[(q ++ ['/'] ++ m ++ [c] ++ ['/']).length - 2]? =
      some c := by
    have hlen : (q ++ ['/'] ++ m ++ [c] ++ ['/']).length - 2 = (q ++ ['/'] ++ m).length := by
      simp
      omega
    rw [hlen, append_assoc]
    simp
  rw [htext, Layout.up, hget, if_pos ⟨by simp; omega, by simpa using hc⟩, dropLast_concat,
    append_assoc _ m, upToSlash_append hn.plain, Layout.upToSlash_concat, if_pos rfl, hq]

/-- A component in front of a slash. -/
lemma separate_behind (hnames : ∀ n ∈ names, Name n) (hup : s = ['.', '.'] → names ≠ []) :
    Layout.separate ⟨behind drive names, s, true⟩ '/' =
      ⟨behind drive (cancelStep names s), [], true⟩ := by
  unfold Layout.separate cancelStep
  by_cases hdots : s = ['.', '.']
  · obtain ⟨front, n, rfl⟩ : ∃ front n, names = front ++ [n] :=
      ⟨_, _, (dropLast_append_getLast (hup hdots)).symm⟩
    simp [hdots, up_behind_concat (hnames n (by simp))]
  · by_cases hone : s = ['.']
    · simp [hone, isOrdinary]
    · by_cases hnil : s = []
      · simp [hnil, isOrdinary]
      · simp [hdots, hone, hnil, isOrdinary, Layout.text, behind_concat, nul]

lemma trimSlash_behind (drive : Str) (hnames : ∀ n ∈ names, Name n) :
    trimSlash (behind drive names) = drive ++ ':' :: '/' :: ['/'].intercalate names := by
  cases names using reverseRecOn with
  | nil => simp [trimSlash, behind]
  | append_singleton front n =>
    have hn := hnames n (by simp)
    obtain ⟨m, c, rfl⟩ : ∃ m c, n = m ++ [c] :=
      ⟨_, _, (dropLast_append_getLast hn.ne_nil).symm⟩
    have hc : c ≠ ':' := (hn.plain c (by simp)).1
    have htext : behind drive (front ++ [m ++ [c]]) = behind drive front ++ m ++ [c] ++ ['/'] := by
      simp [behind_concat]
    have hlast : (behind drive front ++ m ++ [c] ++ ['/']).length - 1 =
        (behind drive front ++ m ++ [c]).length := by simp
    have hsecond : (behind drive front ++ m ++ [c] ++ ['/']).length - 2 =
        (behind drive front ++ m).length := by
      simp
      omega
    rw [htext, trimSlash, hlast, hsecond, if_pos, dropLast_concat, intercalate_concat]
    · simp [behind]
    · refine ⟨by simp; omega, by simp, ?_⟩
      rw [append_assoc]
      simpa using hc

lemma separate_eq {l : Layout} (h : isOrdinary l.cur = false) (c d : Char) :
    l.separate c = l.separate d := by
  unfold Layout.separate
  by_cases hdots : l.cur = ['.', '.']
  · simp [hdots]
  · by_cases hone : l.cur = ['.']
    · simp [hone]
    · have hnil : l.cur = [] := by simpa [isOrdinary, hdots, hone] using h
      simp [hnil]

/-- What is written at the end of the path. -/
lemma trimSlash_separate
    (hnames : ∀ n ∈ names, Name n) (hs : ∀ c ∈ s, Plain c) (hup : s = ['.', '.'] → names ≠ []) :
    trimSlash (Layout.separate ⟨behind drive names, s, true⟩ nul).text =
      drive ++ ':' :: '/' :: ['/'].intercalate (cancelStep names s) := by
  cases hordinary : isOrdinary s with
  | true =>
    -- the component is the last one, and there is no slash behind it
    have hne : s ≠ [] ∧ s ≠ ['.'] ∧ s ≠ ['.', '.'] := by
      simpa [isOrdinary, and_assoc] using hordinary
    obtain ⟨m, c, rfl⟩ : ∃ m c, s = m ++ [c] := ⟨_, _, (dropLast_append_getLast hne.1).symm⟩
    have hc : c ≠ '/' := (hs c (by simp)).2.1
    have hstays : Layout.separate ⟨behind drive names, m ++ [c], true⟩ nul =
        ⟨behind drive names, m ++ [c], true⟩ := by
      simp [Layout.separate, hne.2.1, hne.2.2]
    have hlast : (behind drive names ++ (m ++ [c])).length - 1 =
        (behind drive names ++ m).length := by simp
    rw [hstays, cancelStep, if_neg hne.2.2, if_pos hordinary, intercalate_concat, trimSlash,
      Layout.text, hlast, if_neg]
    · simp [behind]
    · rw [← append_assoc]
      simp [hc]
  | false =>
    rw [separate_eq hordinary nul '/', separate_behind hnames hup, Layout.text, append_nil,
      trimSlash_behind drive (Name.of_mem_cancelStep hnames hs)]

variable {size : ℕ}

/-- Characters of a component. -/
lemma scan_plain (hs : ∀ c ∈ s, Plain c) {l : Layout} {first : Bool}
    (h : l.text.length + s.length ≤ size) (rest : Str) :
    scan size l first (s ++ rest) =
      scan size { l with cur := l.cur ++ s } (first && s.isEmpty) rest := by
  induction s generalizing l first with
  | nil => simp
  | cons c s ih =>
    obtain ⟨hcolon, hslash, hnewline, hnul⟩ := hs c (by simp)
    have hsep : isSeparator c = false := by simp [isSeparator, hslash, hnewline, hnul]
    rw [length_cons] at h
    rw [cons_append, scan, if_neg (by omega), if_neg hcolon, if_neg (by simp [hsep]),
      ih (fun d hd => hs d (mem_cons_of_mem _ hd)) (by simp; omega)]
    simp [Layout.add]

/-- A component up to the character that ends it. -/
lemma scan_component {drive s : Str} (hs : ∀ c ∈ s, Plain c)
    (hshort : s.length < maxSeglen) (h : (behind drive names).length + s.length < size) {c : Char}
    (hc : isSeparator c = true) (rest : Str) :
    scan size ⟨behind drive names, [], true⟩ false (s ++ c :: rest) =
      if c = nul then some (true, Layout.separate ⟨behind drive names, s, true⟩ c)
      else scan size (Layout.separate ⟨behind drive names, s, true⟩ c) false rest := by
  have hcloses : Layout.Closes ⟨behind drive names, s, true⟩ :=
    ⟨hshort, fun _ => by simp [behind]; omega⟩
  have hcolon : c ≠ ':' := by
    rintro rfl
    simp [isSeparator, nul] at hc
  rw [scan_plain hs (by simpa [Layout.text] using h.le), nil_append, scan,
    if_neg (by simpa [Layout.text] using h), if_neg hcolon, if_pos hc, if_pos hcloses]

/-- The components behind a drive. -/
lemma scan_comps {front comps : List Str}
    (hplain : ∀ s ∈ front ++ comps, ∀ c ∈ s, Plain c) (hshort : ∀ s ∈ comps, s.length < maxSeglen)
    (hbalanced : Balanced (front ++ comps))
    (hroom : (behind drive (cancel front)).length + (['/'].intercalate comps).length < size)
    (t : Str) :
    ∃ l, scan size ⟨behind drive (cancel front), [], true⟩ false
        (['/'].intercalate comps ++ nul :: t) = some (true, l) ∧
      trimSlash l.text = drive ++ ':' :: '/' :: ['/'].intercalate (cancel (front ++ comps)) := by
  induction comps generalizing front with
  | nil =>
    have hnames := Name.of_mem_cancel fun s hs => hplain s (mem_append_left _ hs)
    have hscan := scan_component (by simp) (by simp [maxSeglen]) hroom (c := nul) rfl t
    refine ⟨_, hscan, ?_⟩
    rw [trimSlash_separate hnames (by simp) (by simp), append_nil]
    rfl
  | cons s comps ih =>
    have hnames := Name.of_mem_cancel fun s hs => hplain s (mem_append_left _ hs)
    have hs : ∀ c ∈ s, Plain c := hplain s (by simp)
    have hup : s = ['.', '.'] → cancel front ≠ [] := by
      rintro rfl
      exact hbalanced.cancel_ne_nil
    cases comps with
    | nil =>
      rw [intercalate_singleton] at hroom ⊢
      have hscan := scan_component hs (hshort s (by simp)) hroom (c := nul) rfl t
      exact ⟨_, hscan, by rw [trimSlash_separate hnames hs hup, cancel_concat]⟩
    | cons s' comps =>
      have htext : ∀ u : Str, ['/'].intercalate (s :: s' :: comps) ++ u =
          s ++ '/' :: (['/'].intercalate (s' :: comps) ++ u) := by
        intro u
        simp [intercalate_cons_cons]
      have hlen := htext []
      rw [append_nil, append_nil] at hlen
      rw [hlen, length_append, length_cons] at hroom
      have hscan := scan_component hs (hshort s (by simp))
        (show (behind drive (cancel front)).length + s.length < size by omega) (c := '/') rfl
        (['/'].intercalate (s' :: comps) ++ nul :: t)
      rw [if_neg (by decide), separate_behind hnames hup, ← cancel_concat] at hscan
      have hgrows : (behind drive (cancel (front ++ [s]))).length ≤
          (behind drive (cancel front)).length + s.length + 1 := by
        have hle := Layout.length_separate_le ⟨behind drive (cancel front), s, true⟩ '/'
        rw [separate_behind hnames hup, ← cancel_concat] at hle
        simpa [Layout.text] using hle
      obtain ⟨l, hl, htrim⟩ := @ih (front ++ [s]) (by simpa using hplain)
        (fun s hs => hshort s (mem_cons_of_mem _ hs)) (by simpa using hbalanced) (by omega)
      refine ⟨l, ?_, by simpa using htrim⟩
      rw [htext, hscan, hl]

namespace AbsolutePath

variable (p : AbsolutePath)

lemma colon_mem_takeWhile : ':' ∈ p.text.takeWhile (· != '/') := by
  have hdrive : ∀ c ∈ p.drive, (c != '/') = true := by
    intro c hc
    simpa using (p.name.plain c hc).2.1
  rw [text, takeWhile_append_of_pos hdrive]
  simp

lemma nul_notMem_text : nul ∉ p.text := by
  intro hmem
  rw [text, mem_append, mem_cons] at hmem
  rcases hmem with hmem | hmem | hmem
  · exact (p.name.plain nul hmem).2.2.2 rfl
  · exact absurd hmem (by decide)
  · rcases mem_intercalate hmem with hslash | ⟨s, hs, hc⟩
    · exact absurd hslash (by decide)
    · exact (p.plain s hs nul hc).2.2.2 rfl

/-- The two copies of `btos_path_parse`. -/
lemma parse_eq {strcmp : Compare} (hstrcmp : Compares strcmp) (hsize : size < 2 ^ 32)
    (hpath : p.text.length + 2 ≤ maxPath) (hroom : p.text.length + 2 ≤ size) (cwd : Str)
    (stack : Buffer Char) {buffer : Buffer Char} (hbuffer : buffer.length = size) :
    ((assemble (p.text ++ [nul]) cwd stack).bind fun path => parseLoop strcmp path buffer size) =
      some (true, padded nul size p.normal) := by
  have hshort : maxPath + 1 < 2 ^ 31 := by simp [maxPath]
  obtain ⟨t, ht⟩ : ∃ t, pathBytes p.text = p.text ++ nul :: t := by
    obtain ⟨n, hn⟩ : ∃ n, maxPath - p.text.length = n + 1 := ⟨maxPath - p.text.length - 1, by omega⟩
    refine ⟨replicate n nul, ?_⟩
    rw [pathBytes, take_of_length_le (by omega), padded, hn, replicate_succ]
  have hlen : p.text.length = p.drive.length + (['/'].intercalate p.comps).length + 1 := by
    simp [text, Nat.add_assoc]
  -- the drive
  have hdrive : scan size .empty true (p.text ++ nul :: t) =
      scan size ⟨behind p.drive (cancel []), [], true⟩ false
        (['/'].intercalate p.comps ++ nul :: t) := by
    have hfirst : (true && p.drive.isEmpty) = false := by simp [p.name.ne_nil]
    rw [text, append_assoc, scan_plain p.name.plain (by simp; omega), hfirst,
      cons_append, scan, if_neg (by simp [Layout.empty, Layout.text]; omega), if_pos rfl,
      if_neg (by simp [Layout.empty]), if_pos (by simp [Layout.empty, Layout.text]; omega)]
    simp [Layout.addDrive, Layout.empty, Layout.text, behind, cancel]
  obtain ⟨l, hl, htrim⟩ := @scan_comps p.drive size [] p.comps p.plain p.short p.balanced
    (by simp [behind, cancel]; omega) t
  have habs : isAbsolute p.text = true := by simpa [isAbsolute] using p.colon_mem_takeWhile
  rw [assemble_of_isAbsolute p.nul_notMem_text habs, bind_some,
    parseLoop_eq hstrcmp hbuffer hsize (by rwa [length_pathBytes]), ht, hdrive, hl, map_some]
  simp [htrim, normal]

end AbsolutePath

/-! ## The shell -/

section Shell

open Cmd

lemma foldlM_plain (hs : ∀ c ∈ s, Plain c) (st : PathState) :
    s.foldlM parsePathChar st = some { st with current := st.current ++ s } := by
  induction s generalizing st with
  | nil => simp
  | cons c s ih =>
    obtain ⟨hcolon, hslash, -, -⟩ := hs c (by simp)
    have hround : parsePathChar st c = some { st with current := st.current ++ [c] } := by
      simp [parsePathChar, hcolon, hslash]
    rw [foldlM_cons, hround, bind_eq_bind, bind_some, ih fun d hd => hs d (mem_cons_of_mem _ hd)]
    simp

lemma endSection_behind {drive s : Str} (hup : s = ['.', '.'] → names ≠ []) :
    endSection ⟨drive :: names, s, true⟩ = some ⟨drive :: cancelStep names s, [], true⟩ := by
  unfold endSection cancelStep
  by_cases hdots : s = ['.', '.']
  · have hne := hup hdots
    simp [hdots, dropLast_cons_of_ne_nil hne, length_pos_iff.mpr hne]
  · by_cases hone : s = ['.']
    · simp [hone, isOrdinary]
    · by_cases hnil : s = []
      · simp [hnil, isOrdinary]
      · simp [hdots, hone, hnil, isOrdinary]

/-- The components behind a drive. -/
lemma foldlM_comps {front comps : List Str}
    (hplain : ∀ s ∈ comps, ∀ c ∈ s, Plain c) (hbalanced : Balanced (front ++ comps)) :
    ((['/'].intercalate comps).foldlM parsePathChar ⟨drive :: cancel front, [], true⟩).bind
        endSection = some ⟨drive :: cancel (front ++ comps), [], true⟩ := by
  induction comps generalizing front with
  | nil => simp [endSection]
  | cons s comps ih =>
    have hs : ∀ c ∈ s, Plain c := hplain s (by simp)
    have hup : s = ['.', '.'] → cancel front ≠ [] := by
      rintro rfl
      exact hbalanced.cancel_ne_nil
    cases comps with
    | nil =>
      rw [intercalate_singleton, foldlM_plain hs, bind_some, nil_append,
        endSection_behind hup, cancel_concat]
    | cons s' comps =>
      have htext : ['/'].intercalate (s :: s' :: comps) =
          s ++ '/' :: ['/'].intercalate (s' :: comps) := by
        simp [intercalate_cons_cons]
      have hslash : ∀ st, parsePathChar st '/' = endSection st := fun _ => rfl
      have hrest := @ih (front ++ [s]) (fun s hs => hplain s (mem_cons_of_mem _ hs))
        (by simpa using hbalanced)
      rw [htext, foldlM_append, foldlM_plain hs, bind_eq_bind, bind_some,
        foldlM_cons, hslash, nil_append, endSection_behind hup, bind_eq_bind,
        bind_some, ← cancel_concat, hrest]
      simp

lemma joinSections_behind (drive : Str) (names : List Str) :
    joinSections ((drive ++ [':']) :: names) = drive ++ ':' :: '/' :: ['/'].intercalate names := by
  cases names using reverseRecOn with
  | nil => simp [joinSections]
  | append_singleton front n =>
    have hfinal : (((drive ++ [':']) :: (front ++ [n])).map (· ++ ['/'])).flatten =
        drive ++ ':' :: '/' :: ((front.map (· ++ ['/'])).flatten ++ n) ++ ['/'] := by simp
    rw [joinSections, hfinal, if_pos (by simp), dropLast_concat, intercalate_concat]

lemma isAbsolute_eq (path : Str) : Cmd.isAbsolute path = Paths.isAbsolute path := by
  induction path with
  | nil => simp [Cmd.isAbsolute, Paths.isAbsolute]
  | cons c path ih =>
    rw [Cmd.isAbsolute]
    by_cases hslash : c = '/'
    · simp [hslash, Paths.isAbsolute]
    · by_cases hcolon : c = ':'
      · simp [hcolon, Paths.isAbsolute]
      · simp [hslash, hcolon, ih, Paths.isAbsolute, Ne.symm hcolon]

lemma AbsolutePath.parsePath_eq (p : AbsolutePath) (cwd : Str) :
    parsePath cwd p.text = p.normal := by
  have habs : Cmd.isAbsolute p.text = true := by
    rw [isAbsolute_eq]
    simpa [Paths.isAbsolute] using p.colon_mem_takeWhile
  have hcolon : parsePathChar ⟨[], p.drive, false⟩ ':' = some ⟨[p.drive ++ [':']], [], true⟩ := by
    simp [parsePathChar, p.name.ne_nil]
  have hcomps := @foldlM_comps (p.drive ++ [':']) [] p.comps p.plain p.balanced
  rw [parsePath, if_pos habs]
  have hfold : p.text.foldlM parsePathChar ⟨[], [], false⟩ =
      (['/'].intercalate p.comps).foldlM parsePathChar ⟨[p.drive ++ [':']], [], true⟩ := by
    rw [text, foldlM_append, foldlM_plain p.name.plain, bind_eq_bind, bind_some,
      foldlM_cons, nil_append, hcolon]
    rfl
  rw [hfold]
  refine (congrArg (Option.elim · [] fun s => joinSections s.sections) hcomps).trans ?_
  rw [elim_some, joinSections_behind]
  rfl

end Shell

/-! ## All three -/

/-- The three normalisers bring a path with a drive into the same form. -/
theorem normalisers_agree (p : AbsolutePath) (size : UInt32) (hpath : p.text.length + 2 ≤ maxPath)
    (hsize : p.text.length + 2 ≤ size.toNat) (cwd : Str) (stack : Buffer Char)
    {buffer : Buffer Char} (hbuffer : buffer.length = size.toNat) :
    Crt.btosPathParse true (p.text ++ [nul]) cwd stack buffer size.toNat =
        some (true, padded nul size.toNat p.normal) ∧
      Eloader.btosPathParse (p.text ++ [nul]) cwd stack buffer size.toNat =
        some (true, padded nul size.toNat p.normal) ∧ Cmd.parsePath cwd p.text = p.normal :=
  ⟨p.parse_eq Crt.compares_strcmp size.toNat_lt hpath hsize cwd stack hbuffer,
    p.parse_eq Eloader.compares_strcmp size.toNat_lt hpath hsize cwd stack hbuffer,
    p.parsePath_eq cwd⟩

/-- `d:/a/../b` -/
def upAndDown : AbsolutePath where
  drive := ['d']
  comps := [[], ['a'], ['.', '.'], ['b']]
  name := ⟨by decide, by simp [Plain, nul]⟩
  plain := by simp [Plain, nul]
  short := by simp [maxSeglen]
  balanced := by
    intro front hfront
    have hmem : front ∈ [[], ['a'], ['.', '.'], ['b']].inits := (List.mem_inits _ _).mpr hfront
    have hall : ∀ q ∈ [[], ['a'], ['.', '.'], ['b']].inits,
        q.count ['.', '.'] ≤ q.countP isOrdinary := by decide
    exact hall front hmem

/-- `d:/a/../b` is `d:/b` for all three. -/
theorem normalisers_agree_upAndDown :
    Crt.btosPathParse true ("d:/a/../b".toList ++ [nul]) [] [] (replicate 32 'x') 32 =
        some (true, padded nul 32 "d:/b".toList) ∧
      Eloader.btosPathParse ("d:/a/../b".toList ++ [nul]) [] [] (replicate 32 'x') 32 =
        some (true, padded nul 32 "d:/b".toList) ∧
      Cmd.parsePath [] "d:/a/../b".toList = "d:/b".toList :=
  normalisers_agree upAndDown 32 (by simp [maxPath]; decide) (by decide) [] [] rfl

end Paths
