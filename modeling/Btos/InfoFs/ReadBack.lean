import Btos.Btoslib.Table
import Btos.InfoFs.Generators

/-!
# Reading the information files

The kernel prints names, paths and values between quotes but does not put a backslash in front of
a quote or a backslash of theirs, and a newline ends the row. `parsecsv`, with which programs read
the files, gives such a text back only if it has none of the three (`readable_iff`).

That the rows come back is a matter of single rows once no newline is in between: `readsBack_iff`
reduces the one to the other for any table. In a single row a quote or a backslash would have to
come out of the line, which takes more backslashes than there are in it.
-/

open List Option

namespace InfoFs

open Printf Process Btoslib

/-- A text without characters that mean something in a row. -/
def Plain (s : Str) : Prop := '"' ∉ s ∧ '\\' ∉ s ∧ '\n' ∉ s

instance (s : Str) : Decidable (Plain s) := inferInstanceAs (Decidable (_ ∧ _))

/-- Columns of a row, up to blanks at the ends. -/
def readRow (columns : List Str) (row : TableRow) : List (Option Str) :=
  columns.map fun column => (row.lookup column).map trim

/-- What is expected of these columns. -/
def expected (values : List Str) : List (Option Str) := values.map fun v => some (trim v)

/-- The table that is read from a text has one row for each list of values, in this order, with
the values in its columns up to blanks at the ends. -/
def ReadsBack (text : Str) (columns : List Str) (listed : List (List Str)) : Prop :=
  ∃ t, parsecsv (.ofList text) = some t ∧ t.rows.map (readRow columns) = listed.map expected

/-! ## From tables to rows -/

lemma parsecsv_eq (file : InputStream Char) :
    parsecsv file =
      let header := (file.getline '\n').1.getD []
      let headers := splitcsv (header.drop 2)
      if header.length < 2 then none
      else some ⟨headers, ((file.getline '\n').2.lines '\n').filterMap (parseRow headers)⟩ := by
  have hnever : ∀ header : Str, ¬ (if header.headD '\x00' = '\x00' then 1 else 0) = '#'.toNat := by
    intro header
    split <;> decide
  simp only [parsecsv, if_neg (hnever _)]

lemma parsecsv_append {header : Str} (hnewline : '\n' ∉ header) (hlength : 2 ≤ header.length)
    (rest : Str) :
    parsecsv (.ofList (header ++ '\n' :: rest)) =
      some ⟨splitcsv (header.drop 2),
        ((InputStream.ofList rest).lines '\n').filterMap
          (parseRow (splitcsv (header.drop 2)))⟩ := by
  rw [parsecsv_eq, InputStream.getline_append hnewline]
  simp only [getD_some, if_neg (Nat.not_lt.mpr hlength)]

variable {c : Char}

lemma mem_line_of_mem_column {headers : List Str} {line column field : Str} {row : TableRow}
    (hrow : parseRow headers line = some row) (hfield : row.lookup column = some field)
    (hc : c ≠ ' ') (hmem : c ∈ field) : c ∈ line := by
  obtain ⟨front, back, hentries, -⟩ := lookup_eq_some_iff.mp hfield
  have hin : (column, field) ∈ headers.zip (splitcsv line) := by
    rw [(parseRow_eq_some.mp hrow).2, hentries]
    simp
  exact mem_of_mem_splitline hc (of_mem_zip hin).2 hmem

variable {text : Str} {columns : List Str}

/-- Newlines do not come back. -/
lemma newline_notMem_of_readsBack {listed : List (List Str)}
    (h : ReadsBack text columns listed) {values : List Str} (hvalues : values ∈ listed) {v : Str}
    (hv : v ∈ values) : '\n' ∉ v := by
  obtain ⟨t, ht, hrows⟩ := h
  have hmem : expected values ∈ t.rows.map (readRow columns) :=
    hrows ▸ mem_map_of_mem hvalues
  obtain ⟨row, hrow, hread⟩ := mem_map.mp hmem
  have hcolumn : some (trim v) ∈ readRow columns row := hread ▸ mem_map_of_mem hv
  obtain ⟨column, -, hlookup⟩ := mem_map.mp hcolumn
  obtain ⟨field, hfield, htrim⟩ := map_eq_some_iff.mp hlookup
  -- every row is that of a line, and there are no newlines in lines
  obtain ⟨file, headers, line, hline, hparse⟩ : ∃ (file : InputStream Char) (headers : List Str),
      ∃ line ∈ file.lines '\n', parseRow headers line = some row := by
    simp only [parsecsv_eq] at ht
    split_ifs at ht
    cases ht
    obtain ⟨line, hline, hparse⟩ := mem_filterMap.mp hrow
    exact ⟨_, _, line, hline, hparse⟩
  intro hnewline
  rw [← mem_trim (by decide), ← htrim, mem_trim (by decide)] at hnewline
  exact InputStream.newline_notMem hline (mem_line_of_mem_column hparse hfield (by decide) hnewline)

lemma lines_rows {α : Type*} {row : α → Str} {table : List α} (hrow : ∀ x ∈ table, '\n' ∉ row x) :
    (InputStream.ofList (table.map fun x => row x ++ ['\n']).flatten).lines '\n' =
      table.map row := by
  induction table with
  | nil => rfl
  | cons x table ih =>
    rw [forall_mem_cons] at hrow
    rw [map_cons, flatten_cons, append_assoc, singleton_append,
      InputStream.lines_append hrow.1, ih hrow.2, map_cons]

/-- A table can be read back if and only if there are no newlines in its values and each row can
be read back. -/
lemma readsBack_iff {α : Type*} {header : Str} {row : α → Str}
    {values : α → List Str} (hheader : '\n' ∉ header ∧ 2 ≤ header.length)
    (hrow : ∀ x, (∀ v ∈ values x, '\n' ∉ v) → '\n' ∉ row x) (table : List α) :
    ReadsBack (header ++ '\n' :: (table.map fun x => row x ++ ['\n']).flatten) columns
        (table.map values) ↔
      ∀ x ∈ table, (∀ v ∈ values x, '\n' ∉ v) ∧
        (parseRow (splitcsv (header.drop 2)) (row x)).map (readRow columns) =
          some (expected (values x)) := by
  -- once there are no newlines, each line is asked for its own row
  have hrows : (∀ x ∈ table, ∀ v ∈ values x, '\n' ∉ v) →
      (ReadsBack (header ++ '\n' :: (table.map fun x => row x ++ ['\n']).flatten) columns
        (table.map values) ↔
      ∀ x ∈ table, (parseRow (splitcsv (header.drop 2)) (row x)).map (readRow columns) =
          some (expected (values x))) := by
    intro hnewline
    rw [ReadsBack, parsecsv_append hheader.1 hheader.2,
      lines_rows fun x hx => hrow x (hnewline x hx), filterMap_map, List.map_map]
    simp only [some.injEq, exists_eq_left', map_filterMap]
    exact filterMap_eq_map_iff_forall_eq_some
  constructor
  · intro h
    have hnewline : ∀ x ∈ table, ∀ v ∈ values x, '\n' ∉ v := fun x hx v hv =>
      newline_notMem_of_readsBack h (mem_map_of_mem hx) hv
    exact fun x hx => ⟨hnewline x hx, (hrows hnewline).mp h x hx⟩
  · intro h
    exact (hrows fun x hx => (h x hx).1).mpr fun x hx => (h x hx).2

/-! ## The numbers of a row -/

/-- The characters that mean something to the one who reads a row. -/
def marks : List Char := ['"', '\\', ',', '\n']

lemma digit_notMem_marks (n : ℕ) : digit n ∉ marks := by
  by_cases hn : n < 10
  · interval_cases n <;> decide
  · have hdef : digit n = Char.ofNat (n + 87) := by simp [digit, hn]
    have hlt : ∀ c ∈ marks, c.toNat < 97 ∧ c ≠ '\x00' := by simp [marks]
    intro hmem
    obtain ⟨hlt, hnul⟩ := hlt _ hmem
    -- a number that is not that of a character gives a NUL
    by_cases hvalid : (n + 87).isValidChar
    · rw [hdef, Char.ofNat, dif_pos hvalid] at hlt
      change (UInt32.ofNatLT (n + 87) _).toNat < 97 at hlt
      simp only [UInt32.toNat_ofNatLT] at hlt
      omega
    · rw [hdef, Char.ofNat, dif_neg hvalid] at hnul
      exact hnul rfl

lemma digits_notMem_marks (base n num d : ℕ) (started : Bool) :
    ∀ c ∈ digits base n num d started, c ∉ marks := by
  induction n generalizing num d started with
  | zero => simp [digits]
  | succ n ih =>
    rw [digits]
    split_ifs
    · simp
    · exact forall_mem_cons.mpr ⟨digit_notMem_marks _, ih _ _ _⟩
    · exact ih _ _ _

lemma i2a_notMem_marks (num : Int32) : ∀ c ∈ i2a num, c ∉ marks := by
  rw [i2a]
  split
  · exact forall_mem_cons.mpr ⟨by decide, digits_notMem_marks _ _ _ _ _⟩
  · exact digits_notMem_marks _ _ _ _ _

lemma foldl_number (htext : ∀ c ∈ text, c ∉ marks) (ret : List Str) (current : Str) :
    text.foldl (splitChar ',') ⟨ret, current, false, false⟩ =
      ⟨ret, current ++ text, false, false⟩ := by
  refine foldl_splitChar (fun c hc => ?_) ret current
  have hmarks := htext c hc
  simp only [marks, mem_cons, not_or] at hmarks
  exact ⟨hmarks.1, hmarks.2.1, fun _ => hmarks.2.2.1⟩

lemma count_number (htext : ∀ c ∈ text, c ∉ marks) (hc : c ∈ marks) : text.count c = 0 :=
  count_eq_zero.mpr fun hmem => htext c hmem hc

lemma foldl_quoted (hquote : '"' ∉ text) (hbackslash : '\\' ∉ text)
    (ret : List Str) (current : Str) :
    text.foldl (splitChar ',') ⟨ret, current, true, false⟩ =
      ⟨ret, current ++ text, true, false⟩ := by
  refine foldl_splitChar (fun c hc => ?_) ret current
  exact ⟨ne_of_mem_of_not_mem hc hquote, ne_of_mem_of_not_mem hc hbackslash, by simp⟩

lemma foldl_comma (ret : List Str) (current : Str) :
    (", ".toList).foldl (splitChar ',') ⟨ret, current, false, false⟩ =
      ⟨ret ++ [trim current], [' '], false, false⟩ := rfl

lemma foldl_quote (ret : List Str) (current : Str) (quote : Bool) :
    ("\"".toList).foldl (splitChar ',') ⟨ret, current, quote, false⟩ =
      ⟨ret, current, !quote, false⟩ := rfl

namespace Tables

variable (st : Tables)

/-! ## Processes -/

/-- A row of `proc_infofs`, without the newline. -/
def procRow (cur : ProcInfo) : Str :=
  i2a (toInt cur.pid) ++ (", ".toList ++ ("\"".toList ++ (cur.name ++ ("\"".toList ++
    (", ".toList ++ (i2a (if cur.pid ≠ 0 then cur.userUsed else st.kernelUsed).toInt32 ++
      (", ".toList ++ i2a (toInt cur.parent))))))))

lemma tfpFormat_procArgs (cur : ProcInfo) :
    tfpFormat "%i, \"%s\", %i, %i\n".toList (st.procArgs cur) = st.procRow cur ++ ['\n'] := by
  simp [tfpFormat, procArgs, procRow]

lemma count_procRow (cur : ProcInfo) (hc : c = '\\' ∨ c = '\n') :
    (st.procRow cur).count c = cur.name.count c := by
  have hmarks : c ∈ marks := by rcases hc with rfl | rfl <;> decide
  simp only [procRow, count_append, count_number (i2a_notMem_marks _) hmarks]
  rcases hc with rfl | rfl <;> simp

lemma splitcsv_procRow {cur : ProcInfo} (hquote : '"' ∉ cur.name) (hbackslash : '\\' ∉ cur.name) :
    splitcsv (st.procRow cur) = [trim (i2a (toInt cur.pid)), trim cur.name,
      trim (i2a (if cur.pid ≠ 0 then cur.userUsed else st.kernelUsed).toInt32),
      trim (i2a (toInt cur.parent))] := by
  simp only [splitcsv, splitline, procRow, foldl_append, foldl_number (i2a_notMem_marks _),
    foldl_comma, foldl_quote, Bool.not_false, foldl_quoted hquote hbackslash, Bool.not_true]
  simp

/-- The columns of `proc_infofs`. -/
def procHeaders : List Str := ["PID".toList, "path".toList, "memory".toList, "parent".toList]

lemma parseRow_procRow_iff (cur : ProcInfo) :
    (parseRow procHeaders (st.procRow cur)).map (readRow ["path".toList]) =
        some (expected [cur.name]) ↔ '"' ∉ cur.name ∧ '\\' ∉ cur.name := by
  constructor
  · intro h
    obtain ⟨row, hrow, hread⟩ := map_eq_some_iff.mp h
    obtain ⟨hlength, rfl⟩ := parseRow_eq_some.mp hrow
    obtain ⟨pid, path, memory, parent, hfields⟩ := length_eq_four.mp hlength
    have htrim : trim path = trim cur.name := by
      simpa [hfields, procHeaders, readRow, expected, lookup_cons] using hread
    -- what comes out takes more backslashes than what went in
    have hle := sum_escapes_le (st.procRow cur) ','
    rw [← splitcsv, hfields, count_procRow st cur (.inl rfl)] at hle
    simp only [map_cons, map_nil, sum_cons, sum_nil] at hle
    have hpath : escapes path = escapes cur.name := by rw [← escapes_trim, htrim, escapes_trim]
    refine escapes_eq_zero.mp ?_
    rw [hpath] at hle
    simp only [escapes] at hle ⊢
    omega
  · rintro ⟨hquote, hbackslash⟩
    simp [parseRow, splitcsv_procRow st hquote hbackslash, procHeaders, readRow, expected,
      lookup_cons]

lemma readsBack_procInfofs_iff :
    ReadsBack st.procInfofs.text ["path".toList] (st.processes.map fun cur => [cur.name]) ↔
      ∀ cur ∈ st.processes, Plain cur.name := by
  have htext : st.procInfofs.text = "# PID, path, memory, parent".toList ++
      '\n' :: (st.processes.map fun cur => st.procRow cur ++ ['\n']).flatten := by
    rw [procInfofs, Block.text_rows]
    simp only [tfpFormat_procArgs]
    rfl
  rw [htext, readsBack_iff (by decide)]
  · refine forall₂_congr fun cur _ => ?_
    have hheaders : splitcsv ("# PID, path, memory, parent".toList.drop 2) = procHeaders := by
      decide
    rw [hheaders, parseRow_procRow_iff]
    simp [Plain]
    tauto
  · intro cur hname
    rw [← count_eq_zero, count_procRow st cur (.inr rfl), count_eq_zero]
    exact hname _ (mem_singleton.mpr rfl)

/-! ## Variables -/

/-- A row of `env_infofs`, without the newline. -/
def envRow (e : Str × EnvVar) : Str :=
  "\"".toList ++ (e.1 ++ ("\"".toList ++ (", ".toList ++ ("\"".toList ++ (e.2.value ++
    ("\"".toList ++ (", ".toList ++ ui2a e.2.flags.toNat.toUInt32 16)))))))

lemma tfpFormat_envArgs (e : Str × EnvVar) :
    tfpFormat "\"%s\", \"%s\", %x\n".toList (envArgs e) = envRow e ++ ['\n'] := by
  simp [tfpFormat, envArgs, envRow]

lemma count_envRow (e : Str × EnvVar) (hc : c = '\\' ∨ c = '\n') :
    (envRow e).count c = e.1.count c + e.2.value.count c := by
  have hmarks : c ∈ marks := by rcases hc with rfl | rfl <;> decide
  simp only [envRow, count_append, ui2a, count_number (digits_notMem_marks _ _ _ _ _) hmarks]
  rcases hc with rfl | rfl <;> simp

lemma splitcsv_envRow {e : Str × EnvVar} (hname : '"' ∉ e.1 ∧ '\\' ∉ e.1)
    (hvalue : '"' ∉ e.2.value ∧ '\\' ∉ e.2.value) :
    splitcsv (envRow e) = [trim e.1, trim e.2.value, trim (ui2a e.2.flags.toNat.toUInt32 16)] := by
  simp only [splitcsv, splitline, envRow, ui2a, foldl_append,
    foldl_number (digits_notMem_marks _ _ _ _ _), foldl_comma, foldl_quote, Bool.not_false,
    foldl_quoted hname.1 hname.2, foldl_quoted hvalue.1 hvalue.2, Bool.not_true]
  simp

/-- The columns of `env_infofs`. -/
def envHeaders : List Str := ["name".toList, "value".toList, "flags".toList]

lemma parseRow_envRow_iff (e : Str × EnvVar) :
    (parseRow envHeaders (envRow e)).map (readRow ["name".toList, "value".toList]) =
        some (expected [e.1, e.2.value]) ↔
      ('"' ∉ e.1 ∧ '\\' ∉ e.1) ∧ '"' ∉ e.2.value ∧ '\\' ∉ e.2.value := by
  constructor
  · intro h
    obtain ⟨row, hrow, hread⟩ := map_eq_some_iff.mp h
    obtain ⟨hlength, rfl⟩ := parseRow_eq_some.mp hrow
    obtain ⟨name, value, flags, hfields⟩ := length_eq_three.mp hlength
    obtain ⟨hname, hvalue⟩ : trim name = trim e.1 ∧ trim value = trim e.2.value := by
      simpa [hfields, envHeaders, readRow, expected, lookup_cons] using hread
    have hle := sum_escapes_le (envRow e) ','
    rw [← splitcsv, hfields, count_envRow e (.inl rfl)] at hle
    simp only [map_cons, map_nil, sum_cons, sum_nil] at hle
    have hname' : escapes name = escapes e.1 := by rw [← escapes_trim, hname, escapes_trim]
    have hvalue' : escapes value = escapes e.2.value := by
      rw [← escapes_trim, hvalue, escapes_trim]
    rw [hname', hvalue'] at hle
    refine ⟨escapes_eq_zero.mp ?_, escapes_eq_zero.mp ?_⟩ <;> simp only [escapes] at hle ⊢ <;> omega
  · rintro ⟨hname, hvalue⟩
    simp [parseRow, splitcsv_envRow hname hvalue, envHeaders, readRow, expected, lookup_cons]

lemma readsBack_envInfofs_iff :
    ReadsBack st.envInfofs.text ["name".toList, "value".toList]
        ((st.globalVars ++ st.ownVars).map fun e => [e.1, e.2.value]) ↔
      ∀ e ∈ st.globalVars ++ st.ownVars, Plain e.1 ∧ Plain e.2.value := by
  have htext : st.envInfofs.text = "# name, value, flags".toList ++
      '\n' :: ((st.globalVars ++ st.ownVars).map fun e => envRow e ++ ['\n']).flatten := by
    rw [envInfofs, Block.text_rows, Block.text_rows, append_assoc, ← flatten_append, ← map_append]
    simp only [tfpFormat_envArgs]
    rfl
  rw [htext, readsBack_iff (by decide)]
  · refine forall₂_congr fun e _ => ?_
    have hheaders : splitcsv ("# name, value, flags".toList.drop 2) = envHeaders := by decide
    rw [hheaders, parseRow_envRow_iff]
    simp [Plain]
    tauto
  · intro e hplain
    simp only [mem_cons, not_mem_nil, or_false, forall_eq_or_imp, forall_eq] at hplain
    rw [← count_eq_zero, count_envRow e (.inr rfl), count_eq_zero.mpr hplain.1,
      count_eq_zero.mpr hplain.2]

/-! ## Both files -/

/-- The files of processes and of variables can be read back if and only if there are no quotes,
backslashes and newlines in the names and values that are listed. -/
theorem readable_iff :
    (ReadsBack st.procInfofs.text ["path".toList] (st.processes.map fun cur => [cur.name]) ↔
      ∀ cur ∈ st.processes, Plain cur.name) ∧
    (ReadsBack st.envInfofs.text ["name".toList, "value".toList]
        ((st.globalVars ++ st.ownVars).map fun e => [e.1, e.2.value]) ↔
      ∀ e ∈ st.globalVars ++ st.ownVars, Plain e.1 ∧ Plain e.2.value) :=
  ⟨st.readsBack_procInfofs_iff, st.readsBack_envInfofs_iff⟩

/-- A value with a quote, in a table that is far from filling its block. -/
theorem exists_not_readsBack : ∃ st : Tables, (Generator.envInfofs.block st).Inside ∧
    ¬ ReadsBack st.envInfofs.text ["name".toList, "value".toList]
        ((st.globalVars ++ st.ownVars).map fun e => [e.1, e.2.value]) := by
  have hown : (afterSetenv ['"']).ownVars = [("A".toList, ⟨['"'], 0⟩)] :=
    ownVars_afterSetenv (by decide)
  refine ⟨afterSetenv ['"'], ?_, fun h => ?_⟩
  · rw [inside_iff, textLength, hown]
    decide
  · have hplain := ((readsBack_envInfofs_iff _).mp h) ("A".toList, ⟨['"'], 0⟩)
      (mem_append_right _ (by rw [hown]; exact mem_singleton_self _))
    exact absurd hplain.2 (by decide)

end Tables

end InfoFs
