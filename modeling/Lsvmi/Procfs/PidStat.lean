import Lsvmi.Procfs.PidTidListEntries

/-!
# The parser for /proc/PID/stat

`PidStat.Parse`.  The comm is whatever stands between the first `(` and a `)` that is looked for
backwards, first from where the longest comm would end and then from the end of the file.
-/

namespace Lsvmi.Procfs.PidStat

open ProcPid List

variable {rest word ending : Bytes} {words : List Bytes}

def openParen : UInt8 := 40

def closeParen : UInt8 := 41

def taskCommLen : Nat := 16

def pidStatMaxFieldNum : Nat := 41

/-- `PidStatFieldHandling`: the data type and the index together. -/
inductive FieldHandling where
  | bytes (field : PidStatField)
  | ulong (field : PidStatNumField)
  deriving DecidableEq, Repr

def pidStatFieldHandling : Nat → Option FieldHandling
  | 2 => some (.bytes .comm)
  | 3 => some (.bytes .state)
  | 4 => some (.bytes .ppid)
  | 5 => some (.bytes .pgrp)
  | 6 => some (.bytes .session)
  | 7 => some (.bytes .ttyNr)
  | 8 => some (.bytes .tpgid)
  | 9 => some (.bytes .flags)
  | 10 => some (.ulong .minflt)
  | 12 => some (.ulong .majflt)
  | 14 => some (.ulong .utime)
  | 15 => some (.ulong .stime)
  | 18 => some (.bytes .priority)
  | 19 => some (.bytes .nice)
  | 20 => some (.bytes .numThreads)
  | 22 => some (.bytes .starttime)
  | 23 => some (.bytes .vsize)
  | 24 => some (.ulong .rss)
  | 25 => some (.bytes .rsslim)
  | 39 => some (.bytes .processor)
  | 40 => some (.bytes .rtPriority)
  | 41 => some (.bytes .policy)
  | _ => none

inductive PidStatError where
  | cannotLocateOpen
  | cannotLocateClose
  | invalidNumericalValue (fieldNum : Nat) (text : Bytes)
  | notEnoughFields (want got : Nat)
  deriving DecidableEq, Repr

/-! ## The comm -/

/-- The loop that looks for `)` backwards; it ends below `commStart` if there is none. -/
def searchBack (buf : Bytes) (commStart : Nat) : Nat → Nat
  | 0 => 0
  | commEnd + 1 =>
    if commEnd + 1 ≥ commStart ∧ buf[commEnd + 1]? ≠ some closeParen then
      searchBack buf commStart commEnd
    else commEnd + 1

def locateComm (buf : Bytes) : Except PidStatError (Nat × Nat) :=
  match buf.findIdx? (· == openParen) with
  | none => .error .cannotLocateOpen
  | some pos =>
    let l := buf.length
    let commStart := pos + 1
    let commEnd := searchBack buf commStart
      (if commStart + taskCommLen ≥ l then l - 1 else commStart + taskCommLen)
    if commEnd < commStart then
      -- again against the whole buffer
      let commEnd := searchBack buf commStart (l - 1)
      if commEnd < commStart then .error .cannotLocateClose else .ok (commStart, commEnd)
    else .ok (commStart, commEnd)

/-! ## The fields -/

variable (pidStat : PidStat)

/-- The value of a field is stored where its number says; `none` if it should be numerical and is
not. -/
def storeField (fieldNum : Nat) (text : Bytes) : Option PidStat :=
  match pidStatFieldHandling fieldNum with
  | none => some pidStat
  | some (.bytes field) => some { pidStat with bsf := Function.update pidStat.bsf field text }
  | some (.ulong field) =>
    if (invalidDigit text).isSome then none
    else
      let val := text.foldl (fun (v : UInt64) c => (v <<< 3) + (v <<< 1) + (c - 48).toUInt64) 0
      some { pidStat with nf := Function.update pidStat.nf field val }

/-- The loop over the fields, for the number of fields that are still to be found.  The character
behind a field is passed over unseen. -/
def parseFields : Nat → PidStat → Bytes → PidStat × Option PidStatError
  | 0, pidStat, _ => (pidStat, none)
  | n + 1, pidStat, [] =>
    (pidStat, some (.notEnoughFields pidStatMaxFieldNum (pidStatMaxFieldNum - (n + 1))))
  | n + 1, pidStat, c :: buf =>
    let text := (c :: buf).dropWhile isWhitespaceNl
    let field := text.takeWhile fun c => !isWhitespaceNl c
    let fieldNum := pidStatMaxFieldNum - n
    match storeField pidStat fieldNum field with
    | none => (pidStat, some (.invalidNumericalValue fieldNum field))
    | some pidStat =>
      parseFields n pidStat ((text.dropWhile fun c => !isWhitespaceNl c).drop 1)

def parse (buf : Bytes) : PidStat × Option PidStatError :=
  match locateComm buf with
  | .error e => (pidStat, some e)
  | .ok (commStart, commEnd) =>
    let comm := (buf.take commEnd).drop commStart
    parseFields (pidStatMaxFieldNum - 2)
      { pidStat with bsf := Function.update pidStat.bsf .comm comm } (buf.drop (commEnd + 1))

/-! ## The file -/

def bytesNum : PidStatField → Nat
  | .comm => 2 | .state => 3 | .ppid => 4 | .pgrp => 5 | .session => 6 | .ttyNr => 7 | .tpgid => 8
  | .flags => 9 | .priority => 18 | .nice => 19 | .numThreads => 20 | .starttime => 22 | .vsize => 23
  | .rsslim => 25 | .processor => 39 | .rtPriority => 40 | .policy => 41

def ulongNum : PidStatNumField → Nat
  | .minflt => 10 | .majflt => 12 | .utime => 14 | .stime => 15 | .rss => 24

theorem handling_bytes_iff (fieldNum : Nat) (field : PidStatField) :
    pidStatFieldHandling fieldNum = some (.bytes field) ↔ fieldNum = bytesNum field := by
  constructor
  · intro h
    unfold pidStatFieldHandling at h
    split at h <;> cases h <;> rfl
  · rintro rfl
    cases field <;> rfl

theorem handling_ulong_iff (fieldNum : Nat) (field : PidStatNumField) :
    pidStatFieldHandling fieldNum = some (.ulong field) ↔ fieldNum = ulongNum field := by
  constructor
  · intro h
    unfold pidStatFieldHandling at h
    split at h <;> cases h <;> rfl
  · rintro rfl
    cases field <;> rfl

/-- The fields from the third on are the words behind the comm. -/
def fieldText (words : List Bytes) (fieldNum : Nat) : Bytes := words.getD (fieldNum - 3) []

def statFile (pid : Nat) (comm : Bytes) (words : List Bytes) (ending : Bytes) : Bytes :=
  formatUint pid ++ 32 :: openParen :: (comm ++ closeParen ::
    (words.flatMap (fun word => 32 :: word) ++ ending))

def IsField (word : Bytes) : Prop :=
  word ≠ [] ∧ ∀ c ∈ word, isWhitespaceNl c = false ∧ c ≠ closeParen

/-! ### The comm is found -/

section

variable {buf : Bytes} {commStart commEnd n : Nat}

theorem searchBack_found (hstart : commStart ≤ commEnd) (hle : commEnd ≤ n)
    (hclose : buf[commEnd]? = some closeParen)
    (hnone : ∀ i, commEnd < i → i ≤ n → buf[i]? ≠ some closeParen) :
    searchBack buf commStart n = commEnd := by
  induction n with
  | zero =>
    show 0 = commEnd
    omega
  | succ n ih =>
    rw [searchBack]
    by_cases hn : commEnd = n + 1
    · rw [if_neg (fun h => h.2 (hn ▸ hclose)), hn]
    · rw [if_pos ⟨by omega, hnone (n + 1) (by omega) (Nat.le_refl _)⟩]
      exact ih (by omega) fun i hlt hi => hnone i hlt (by omega)

theorem searchBack_none (hpos : 0 < commStart)
    (hnone : ∀ i, commStart ≤ i → i ≤ n → buf[i]? ≠ some closeParen) :
    searchBack buf commStart n < commStart := by
  induction n with
  | zero => exact hpos
  | succ n ih =>
    rw [searchBack]
    by_cases hn : commStart ≤ n + 1
    · rw [if_pos ⟨hn, hnone (n + 1) hn (Nat.le_refl _)⟩]
      exact ih fun i hlt hi => hnone i hlt (by omega)
    · rw [if_neg (fun h => hn h.1)]
      omega

end

theorem getElem?_behind (head tail : Bytes) (c : UInt8) (i : Nat) :
    (head ++ c :: tail)[head.length + 1 + i]? = tail[i]? := by
  rw [getElem?_append_right (by omega), show head.length + 1 + i - head.length = i + 1 by omega,
    getElem?_cons_succ]

/-- The `)` behind the comm is the last one, and it is where the comm ends. -/
theorem locateComm_eq {head comm : Bytes} (hhead : openParen ∉ head)
    (hrest : closeParen ∉ rest) (hcomm : comm.length ≤ taskCommLen ∨ closeParen ∉ comm) :
    locateComm (head ++ openParen :: (comm ++ closeParen :: rest)) =
      .ok (head.length + 1, head.length + 1 + comm.length) := by
  have hopen : (head ++ openParen :: (comm ++ closeParen :: rest)).findIdx? (· == openParen) =
      some head.length := by
    have hnone : head.findIdx? (· == openParen) = none := by
      rw [findIdx?_eq_none_iff]
      intro c hc
      exact beq_eq_false_iff_ne.mpr (ne_of_mem_of_not_mem hc hhead)
    rw [findIdx?_append, hnone]
    simp [findIdx?_cons]
  let buf := head ++ openParen :: (comm ++ closeParen :: rest)
  let commStart := head.length + 1
  have hlen : buf.length = commStart + comm.length + 1 + rest.length := by
    simp only [buf, commStart, length_append, length_cons]
    omega
  have hclose : buf[commStart + comm.length]? = some closeParen := by
    rw [getElem?_behind, getElem?_append_right (Nat.le_refl _), Nat.sub_self]
    rfl
  have hbehind : ∀ i, commStart + comm.length < i → buf[i]? ≠ some closeParen := by
    intro i hi hmem
    obtain ⟨j, rfl⟩ : ∃ j, i = commStart + (comm.length + 1 + j) :=
      ⟨i - commStart - comm.length - 1, by omega⟩
    rw [getElem?_behind, getElem?_behind] at hmem
    exact hrest (mem_of_getElem? hmem)
  have hfound : ∀ n, commStart + comm.length ≤ n →
      searchBack buf commStart n = commStart + comm.length := fun n hn =>
    searchBack_found (Nat.le_add_right _ _) hn hclose fun i hi _ => hbehind i hi
  unfold locateComm
  rw [hopen]
  by_cases hshort : comm.length ≤ taskCommLen
  · have hwindow : commStart + comm.length ≤
        if commStart + taskCommLen ≥ buf.length then buf.length - 1 else commStart + taskCommLen := by
      split <;> omega
    simp only [buf, commStart] at hfound hwindow ⊢
    rw [hfound _ hwindow, if_neg (by omega)]
  · have hwindow : (if commStart + taskCommLen ≥ buf.length then buf.length - 1
        else commStart + taskCommLen) = commStart + taskCommLen := if_neg (by omega)
    -- the window ends inside the comm
    have hnone : searchBack buf commStart (commStart + taskCommLen) < commStart := by
      apply searchBack_none (Nat.succ_pos _)
      intro i hstart hi hmem
      obtain ⟨j, rfl⟩ : ∃ j, i = commStart + j := ⟨i - commStart, by omega⟩
      rw [getElem?_behind, getElem?_append_left (by omega)] at hmem
      exact hcomm.resolve_left hshort (mem_of_getElem? hmem)
    have hwhole := hfound (buf.length - 1) (by omega)
    simp only [buf, commStart] at hwindow hnone hwhole ⊢
    rw [hwindow, if_pos hnone, hwhole, if_neg (by omega)]

/-! ### The fields are read -/

def storeWords : Nat → List Bytes → PidStat → PidStat
  | _, [], pidStat => pidStat
  | fieldNum, word :: words, pidStat =>
    storeWords (fieldNum + 1) words ((storeField pidStat fieldNum word).getD pidStat)

def Numerical (fieldNum : Nat) (word : Bytes) : Prop :=
  ∀ field, fieldNum = ulongNum field → ∀ c ∈ word, isDigit c = true

theorem storeField_eq {fieldNum : Nat} (h : Numerical fieldNum word) (pidStat : PidStat) :
    storeField pidStat fieldNum word = some
      ⟨fun field => if fieldNum = bytesNum field then word else pidStat.bsf field, fun field =>
          if fieldNum = ulongNum field then UInt64.ofNat (decimal word) else pidStat.nf field⟩ := by
  unfold storeField
  simp only [← handling_bytes_iff, ← handling_ulong_iff]
  cases hhandling : pidStatFieldHandling fieldNum with
  | none => rfl
  | some handling =>
    cases handling with
    | bytes field =>
      simp only [Option.some.injEq, FieldHandling.bytes.injEq, reduceCtorEq, if_false]
      congr 2
      funext field'
      rw [Function.update_apply]
      exact if_congr eq_comm rfl rfl
    | ulong field =>
      have hdigits := h field ((handling_ulong_iff fieldNum field).mp hhandling)
      simp only [invalidDigit_eq_none hdigits, Option.isSome_none, Bool.false_eq_true, if_false,
        Option.some.injEq, FieldHandling.ulong.injEq, reduceCtorEq, foldl_digits64]
      congr 2
      funext field'
      rw [Function.update_apply]
      exact if_congr eq_comm rfl rfl

theorem parseFields_word {n : Nat} {gap : Bytes} (hgap : ∀ c ∈ gap, isWhitespaceNl c)
    (hword : IsField word) (hrest : ∀ c ∈ rest.head?, isWhitespaceNl c)
    (hnum : Numerical (pidStatMaxFieldNum - n) word) (pidStat : PidStat) :
    parseFields (n + 1) pidStat (gap ++ (word ++ rest)) =
      parseFields n ((storeField pidStat (pidStatMaxFieldNum - n) word).getD pidStat)
        (rest.drop 1) := by
  have htext : (gap ++ (word ++ rest)).dropWhile isWhitespaceNl = word ++ rest := by
    rw [dropWhile_append_of_pos hgap]
    obtain ⟨hne, hchars⟩ := hword
    obtain ⟨c, w, rfl⟩ := exists_cons_of_ne_nil hne
    exact dropWhile_cons_of_neg (by rw [(hchars c mem_cons_self).1]; decide)
  have hpos : ∀ c ∈ word, (!isWhitespaceNl c) := fun c hc => by rw [(hword.2 c hc).1]; rfl
  obtain ⟨htake, hdrop⟩ := Reasoning.takeWhile_append_stop hpos fun c hc => by rw [hrest c hc]; rfl
  have hne : gap ++ (word ++ rest) ≠ [] := by
    intro h
    exact hword.1 (append_eq_nil_iff.mp (append_eq_nil_iff.mp h).2).1
  obtain ⟨c, buf, hbuf⟩ := exists_cons_of_ne_nil hne
  rw [hbuf] at htext ⊢
  simp only [parseFields, htext, htake, hdrop, storeField_eq hnum, Option.getD_some]

theorem blank_behind_word (words : List Bytes) (hending : ∀ c ∈ ending.head?, isWhitespaceNl c) :
    ∀ c ∈ (words.flatMap (fun w => 32 :: w) ++ ending).head?, isWhitespaceNl c = true := by
  cases words with
  | nil => exact hending
  | cons word words =>
    intro c hc
    cases hc
    rfl

theorem parseFields_words {n : Nat} (gap : Bytes) (hn : n ≤ words.length)
    (hmax : n < pidStatMaxFieldNum) (hgap : ∀ c ∈ gap, isWhitespaceNl c)
    (hword : IsField word) (hwords : ∀ w ∈ words, IsField w)
    (hending : ∀ c ∈ ending.head?, isWhitespaceNl c)
    (hnum : ∀ i, Numerical (pidStatMaxFieldNum - n + i) ((word :: words).getD i []))
    (pidStat : PidStat) :
    parseFields (n + 1) pidStat (gap ++ (word ++ (words.flatMap (fun w => 32 :: w) ++ ending))) =
      (storeWords (pidStatMaxFieldNum - n) ((word :: words).take (n + 1)) pidStat, none) := by
  induction n generalizing gap word words pidStat with
  | zero => rw [parseFields_word hgap hword (blank_behind_word words hending) (hnum 0)]; rfl
  | succ n ih =>
    rw [parseFields_word hgap hword (blank_behind_word words hending) (hnum 0)]
    cases words with
    | nil => cases hn
    | cons word' words =>
      have hnext : pidStatMaxFieldNum - (n + 1) + 1 = pidStatMaxFieldNum - n := by omega
      rw [forall_mem_cons] at hwords
      have hrest := ih [] (Nat.le_of_succ_le_succ hn) (by omega) (forall_mem_nil _) hwords.1 hwords.2
        (fun i => by
          have hi := hnum (i + 1)
          rw [show pidStatMaxFieldNum - (n + 1) + (i + 1) = pidStatMaxFieldNum - n + i by omega] at hi
          exact hi)
        ((storeField pidStat (pidStatMaxFieldNum - (n + 1)) word).getD pidStat)
      rw [nil_append] at hrest
      rw [flatMap_cons, append_assoc]
      show parseFields (n + 1) _ (word' ++ (words.flatMap (fun w => 32 :: w) ++ ending)) = _
      rw [hrest, ← hnext]
      rfl

/-! ### What is stored -/

def numbered {α : Type} (g : Bytes → α) (first : Nat) (words : List Bytes) (num : Nat) (old : α) : α :=
  if first ≤ num ∧ num < first + words.length then g (words.getD (num - first) []) else old

theorem numbered_cons {α : Type} (g : Bytes → α) (first : Nat) (word : Bytes) (words : List Bytes)
    (num : Nat) (old : α) :
    numbered g first (word :: words) num old =
      numbered g (first + 1) words num (if first = num then g word else old) := by
  unfold numbered
  rw [length_cons]
  by_cases hfirst : first = num
  · rw [if_pos (by omega), if_neg (by omega), if_pos hfirst, hfirst, Nat.sub_self]
    rfl
  rw [if_neg hfirst]
  by_cases hnum : first ≤ num ∧ num < first + (words.length + 1)
  · rw [if_pos hnum, if_pos (by omega), show num - first = num - (first + 1) + 1 by omega]
    rfl
  · rw [if_neg hnum, if_neg (by omega)]

theorem storeWords_eq {first : Nat}
    (hnum : ∀ i, Numerical (first + i) (words.getD i [])) (pidStat : PidStat) :
    storeWords first words pidStat =
      ⟨fun field => numbered id first words (bytesNum field) (pidStat.bsf field),
        fun field => numbered (fun word => UInt64.ofNat (decimal word)) first words (ulongNum field)
          (pidStat.nf field)⟩ := by
  induction words generalizing first pidStat with
  | nil =>
    have hnone : ∀ num, ¬ (first ≤ num ∧ num < first + ([] : List Bytes).length) := fun num h =>
      absurd (Nat.lt_of_le_of_lt h.1 h.2) (Nat.lt_irrefl _)
    simp only [numbered, if_neg (hnone _)]
    rfl
  | cons word words ih =>
    have hrest : ∀ i, Numerical (first + 1 + i) (words.getD i []) := fun i => by
      rw [Nat.add_assoc, Nat.add_comm 1 i]
      exact hnum (i + 1)
    have hword : Numerical first word := hnum 0
    rw [storeWords, ih hrest, storeField_eq hword, Option.getD_some]
    simp only [numbered_cons, id]

theorem parse_comm {head comm : Bytes} (hhead : openParen ∉ head)
    (hrest : closeParen ∉ rest) (hcomm : comm.length ≤ taskCommLen ∨ closeParen ∉ comm) :
    parse pidStat (head ++ openParen :: (comm ++ closeParen :: rest)) =
      parseFields 39 { pidStat with bsf := Function.update pidStat.bsf .comm comm } rest := by
  have hsplit : head ++ openParen :: (comm ++ closeParen :: rest) =
      (head ++ [openParen]) ++ (comm ++ closeParen :: rest) := by
    rw [append_assoc]
    rfl
  have hlen : (head ++ [openParen]).length = head.length + 1 := length_append
  have htake : (head ++ openParen :: (comm ++ closeParen :: rest)).take
      (head.length + 1 + comm.length) = (head ++ [openParen]) ++ comm := by
    rw [hsplit, ← hlen, take_length_add_append, take_left]
  have hdrop : (head ++ openParen :: (comm ++ closeParen :: rest)).drop
      (head.length + 1 + comm.length + 1) = rest := by
    rw [hsplit, ← hlen, Nat.add_assoc, drop_length_add_append, drop_length_add_append]
    rfl
  unfold parse
  rw [locateComm_eq hhead hrest hcomm]
  simp only
  rw [htake, hdrop, ← hlen, drop_left]
  rfl

theorem closeParen_notMem_words
    (hwords : ∀ word ∈ words, IsField word) (hending : closeParen ∉ ending) :
    closeParen ∉ words.flatMap (fun word => 32 :: word) ++ ending := by
  intro hmem
  rcases mem_append.mp hmem with hmem | hmem
  · obtain ⟨word, hword, hmem⟩ := mem_flatMap.mp hmem
    rcases mem_cons.mp hmem with hblank | hmem
    · exact absurd hblank (by decide)
    · exact ((hwords word hword).2 _ hmem).2 rfl
  · exact hending hmem

theorem parseFields_all
    (hlen : 39 ≤ words.length) (hwords : ∀ word ∈ words, IsField word)
    (hdecimal : ∀ field, ∀ c ∈ fieldText words (ulongNum field), isDigit c)
    (hending : ∀ c ∈ ending.head?, isWhitespaceNl c) :
    parseFields 39 pidStat (words.flatMap (fun word => 32 :: word) ++ ending) =
      (⟨fun field =>
          if field = .comm then pidStat.bsf .comm else fieldText words (bytesNum field),
        fun field => UInt64.ofNat (decimal (fieldText words (ulongNum field)))⟩, none) := by
  have hnum : ∀ i, Numerical (3 + i) (words.getD i []) := by
    intro i field hi
    have hdigits := hdecimal field
    rw [fieldText, ← hi, Nat.add_sub_cancel_left] at hdigits
    exact hdigits
  have htake : ∀ i, (words.take 39).getD i [] = if i < 39 then words.getD i [] else [] := by
    intro i
    rw [getD_eq_getElem?_getD, getElem?_take]
    split <;> rfl
  have hnumTake : ∀ i, Numerical (3 + i) ((words.take 39).getD i []) := by
    intro i
    rw [htake]
    split
    · exact hnum i
    · exact fun field _ c hc => by cases hc
  have hread : parseFields 39 pidStat (words.flatMap (fun word => 32 :: word) ++ ending) =
      (storeWords 3 (words.take 39) pidStat, none) := by
    obtain ⟨word, words', rfl⟩ := exists_cons_of_length_pos (l := words) (by omega)
    rw [forall_mem_cons] at hwords
    rw [flatMap_cons, append_assoc]
    exact parseFields_words [32] (Nat.le_of_succ_le_succ hlen) (by decide)
      (forall_mem_singleton.mpr rfl) hwords.1 hwords.2 hending hnum pidStat
  have hkept {α : Type} (g : Bytes → α) (num : Nat) (old : α) (hnum : 3 ≤ num ∧ num ≤ 41) :
      numbered g 3 (words.take 39) num old = g (fieldText words num) := by
    rw [numbered, if_pos ⟨hnum.1, by rw [length_take_of_le hlen]; omega⟩, htake, if_pos (by omega)]
    rfl
  rw [hread, storeWords_eq hnumTake]
  congr 2
  · funext field
    by_cases hfield : field = .comm
    · subst hfield
      rfl
    · rw [if_neg hfield]
      apply hkept
      cases field <;> first | exact absurd rfl hfield | decide
  · funext field
    apply hkept
    cases field <;> decide

/-- The parser finds the comm and all the fields of a file, whatever the object was used for before. -/
theorem parse_statFile (pid : Nat) {comm : Bytes} {words : List Bytes}
    {ending : Bytes} (hcomm : comm.length ≤ 16 ∨ closeParen ∉ comm)
    (hlen : 39 ≤ words.length) (hwords : ∀ word ∈ words, IsField word)
    (hdecimal : ∀ field, ∀ c ∈ fieldText words (ulongNum field), isDigit c = true)
    (hending : ending = [] ∨ ending = [newline]) :
    ∃ data, parse pidStat (statFile pid comm words ending) = (data, none) ∧
      data.bsf .comm = comm ∧
      (∀ field, field ≠ .comm → data.bsf field = fieldText words (bytesNum field)) ∧
      ∀ field, (data.nf field).toNat =
        decimal (fieldText words (ulongNum field)) % 18446744073709551616 := by
  have hhead : openParen ∉ formatUint pid ++ [32] := by
    intro hmem
    rcases mem_append.mp hmem with hmem | hmem
    · exact absurd (find?_eq_none.mp (invalidDigit_formatUint pid) _ hmem) (by decide)
    · exact absurd (mem_singleton.mp hmem) (by decide)
  have hclose : closeParen ∉ words.flatMap (fun word => 32 :: word) ++ ending := by
    apply closeParen_notMem_words hwords
    rcases hending with rfl | rfl <;> decide
  have hblank : ∀ c ∈ ending.head?, isWhitespaceNl c = true := by
    rcases hending with rfl | rfl
    · exact fun c hc => by cases hc
    · exact fun c hc => by cases hc; rfl
  have hparse : parse pidStat (statFile pid comm words ending) = _ :=
    (congrArg (parse pidStat) (append_cons _ _ _)).trans (parse_comm pidStat hhead hclose hcomm)
  rw [parseFields_all _ hlen hwords hdecimal hblank] at hparse
  refine ⟨_, hparse, ?_, fun field hne => ?_, fun field => ?_⟩
  · simp
  · exact if_neg hne
  · exact UInt64.toNat_ofNat'

def numberWords : List Bytes := (List.range 50).map fun i => formatUint (i + 3)

/-- A comm that looks like the start of the fields. -/
theorem parse_statFile_parens : ∃ data,
    parse newPidStat (statFile 1 (utf8 "a) S (b\n) 1") numberWords [newline]) = (data, none) ∧
      data.bsf .comm = utf8 "a) S (b\n) 1" ∧
      (∀ field, field ≠ .comm → data.bsf field = fieldText numberWords (bytesNum field)) ∧
      ∀ field, (data.nf field).toNat =
        decimal (fieldText numberWords (ulongNum field)) % 18446744073709551616 := by
  apply parse_statFile
  · exact .inl (by decide +kernel)
  · decide +kernel
  · have hall : numberWords.all (fun word => word != [] && word.all fun c =>
        !isWhitespaceNl c && c != closeParen) = true := by decide +kernel
    intro word hword
    have hfield := all_eq_true.mp hall word hword
    rw [Bool.and_eq_true, all_eq_true] at hfield
    refine ⟨bne_iff_ne.mp hfield.1, fun c hc => ?_⟩
    have hchar := hfield.2 c hc
    rw [Bool.and_eq_true, Bool.not_eq_true'] at hchar
    exact ⟨hchar.1, bne_iff_ne.mp hchar.2⟩
  · intro field
    cases field <;> exact all_eq_true.mp (by decide +kernel)
  · exact .inr rfl

end Lsvmi.Procfs.PidStat
