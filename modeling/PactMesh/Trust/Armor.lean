import PactMesh.Lib.Text
import PactMesh.Trust.Receiver

/-!
# Armored text

The text between a header and a footer is base64 in lines of 64 characters.  Lines are split and
trimmed when the text is read, which leaves characters that are no white space alone.

Main result: `armored_text_read`.
-/

namespace PactMesh

open List

/-- `ArmorError`; what the base64 decoder reports is left out. -/
inductive ArmorError
  | boundary
  | labelMismatch (expected found : String)
  | base64
deriving DecidableEq

def parseArmorLabel (line start : String) : Option String := do
  let label ← line.toList.dropPrefix? start.toList
  return .ofList (← label.dropSuffix? "-----".toList)

def unwrapArmored (base64Decode : List Char → Option (List UInt8)) (text expectedLabel : String) :
    Except ArmorError (List UInt8) :=
  let trimmed := trim text
  if trimmed = "" then .error .boundary
  else
    let lines := (trimmed.toList.splitOn '\n').map fun line => trim (.ofList line)
    if lines.length < 2 then .error .boundary
    else
      match parseArmorLabel (lines.headD "") "-----BEGIN ",
          parseArmorLabel (lines.getLastD "") "-----END " with
      | some found, some footer =>
        if found ≠ footer then .error .boundary
        else if found ≠ expectedLabel then .error (.labelMismatch expectedLabel found)
        else
          match base64Decode (lines.tail.dropLast.flatMap String.toList) with
          | some payload => .ok payload
          | none => .error .base64
      | _, _ => .error .boundary

/-- The lines that `unwrap_armored` looks at. -/
def trimmedLines (text : String) : List String :=
  ((trim text).toList.splitOn '\n').map fun line => trim (.ofList line)

def boundaryLine (start label : String) : String := start ++ label ++ "-----"

variable {l : List Char} {s : String}

theorem dropWhile_of_head {p : Char → Bool} (h : ∀ c ∈ l.head?, p c = false) :
    l.dropWhile p = l := by
  cases l with
  | nil => rfl
  | cons c l => rw [dropWhile_cons_of_neg (by simp [h c rfl])]

theorem trim_of_ends (hhead : ∀ c ∈ s.toList.head?, isWhitespace c = false)
    (hlast : ∀ c ∈ s.toList.getLast?, isWhitespace c = false) : trim s = s := by
  rw [trim, dropWhile_of_head hhead, dropWhile_of_head (by rwa [head?_reverse]), reverse_reverse,
    String.ofList_toList]

theorem trim_of_dashes (hhead : s.toList.head? = some '-') (hlast : s.toList.getLast? = some '-') :
    trim s = s := by
  have hdash : isWhitespace '-' = false := by decide
  exact trim_of_ends (by simp [hhead, hdash]) (by simp [hlast, hdash])

theorem trim_surrounded {left right : List Char} (hs : s.toList = left ++ l ++ right)
    (hleft : ∀ c ∈ left, isWhitespace c) (hright : ∀ c ∈ right, isWhitespace c) :
    trim s = trim (.ofList l) := by
  rw [trim, trim, hs, append_assoc, dropWhile_append_of_pos hleft, dropWhile_append,
    String.toList_ofList]
  split_ifs with h
  · rw [isEmpty_iff.1 h, ← append_nil right, dropWhile_append_of_pos hright]
    rfl
  · rw [reverse_append, dropWhile_append_of_pos (by simpa using hright)]

theorem mem_trim {c : Char} (hc : c ∈ s.toList) (hspace : isWhitespace c = false) :
    c ∈ (trim s).toList := by
  have hkept : ∀ l : List Char, c ∈ l → c ∈ l.dropWhile isWhitespace := by
    intro l hl
    rw [← takeWhile_append_dropWhile (p := isWhitespace) (l := l), mem_append] at hl
    exact hl.resolve_left fun h => by simpa [hspace] using all_eq_true.1 all_takeWhile c h
  simpa [trim] using hkept _ (mem_reverse.2 (hkept _ hc))

theorem flatten_toChunks_go {α : Type} (n : ℕ) (xs : List α) (acc : Array α)
    (chunks : Array (List α)) : (toChunks.go n xs acc chunks).flatten =
      chunks.toList.flatten ++ (acc.toList ++ xs) := by
  induction xs generalizing acc chunks with
  | nil => simp [toChunks.go]
  | cons x xs ih =>
    rw [toChunks.go]
    split_ifs <;> simp [ih]

theorem flatten_toChunks {α : Type} (n : ℕ) (xs : List α) : (xs.toChunks n).flatten = xs := by
  unfold toChunks
  split
  · rfl
  · simp
  · simp [flatten_toChunks_go]

theorem splitOn_lines {chunks : List (List Char)} (h : ∀ chunk ∈ chunks, '\n' ∉ chunk)
    (rest : List Char) : (chunks.flatMap (· ++ ['\n']) ++ rest).splitOn '\n' =
      chunks ++ rest.splitOn '\n' := by
  induction chunks with
  | nil => rfl
  | cons chunk chunks ih =>
    rw [forall_mem_cons] at h
    rw [flatMap_cons, append_assoc, append_assoc, singleton_append,
      splitOn_append_cons_self_of_not_mem h.1, ih h.2, cons_append]

theorem mem_of_between {α : Type} {x header footer : α} {before body after : List α}
    (h : before ++ x :: after = header :: (body ++ [footer])) (hbefore : before ≠ [])
    (hafter : after ≠ []) : x ∈ body := by
  obtain ⟨_, before, rfl⟩ := exists_cons_of_ne_nil hbefore
  rw [← dropLast_concat_getLast hafter] at h
  have hbody : (before ++ x :: after.dropLast) ++ [after.getLast hafter] = body ++ [footer] := by
    simpa using (cons.inj h).2
  rw [← (append_inj' hbody rfl).1]
  exact mem_append_right _ mem_cons_self

/-- The text with a carriage return before every line feed. -/
def crlf (l : List Char) : List Char := l.flatMap fun c => if c = '\n' then ['\r', '\n'] else [c]

theorem dropWhile_flatMap {f : Char → List Char}
    (hspace : ∀ c, isWhitespace c → ∀ d ∈ f c, isWhitespace d)
    (hother : ∀ c, isWhitespace c = false → f c = [c]) (l : List Char) :
    (l.flatMap f).dropWhile isWhitespace = (l.dropWhile isWhitespace).flatMap f := by
  induction l with
  | nil => rfl
  | cons c l ih =>
    cases hc : isWhitespace c with
    | true => rw [flatMap_cons, dropWhile_append_of_pos (hspace c hc), ih, dropWhile_cons_of_pos hc]
    | false => simp [hother c hc, hc]

theorem trim_crlf (l : List Char) :
    (trim (.ofList (crlf l))).toList = crlf (trim (.ofList l)).toList := by
  have hspace : isWhitespace '\n' = true ∧ isWhitespace '\r' = true := by decide
  simp only [trim, crlf, String.toList_ofList]
  rw [dropWhile_flatMap, reverse_flatMap, dropWhile_flatMap, flatMap_reverse]
  all_goals grind

/-- The carriage return is trimmed with the line that it ends. -/
theorem trim_splitOn_crlf (l : List Char) {line : List Char} (h : '\n' ∉ line) :
    ((line ++ crlf l).splitOn '\n').map (fun line => trim (.ofList line)) =
      ((line ++ l).splitOn '\n').map fun line => trim (.ofList line) := by
  induction l generalizing line with
  | nil => rfl
  | cons c l ih =>
    by_cases hc : c = '\n'
    · subst hc
      have hreturn : '\n' ∉ line ++ ['\r'] := by simpa using h
      have hends : line ++ crlf ('\n' :: l) = (line ++ ['\r']) ++ '\n' :: crlf l := by simp [crlf]
      have htrim : trim (.ofList (line ++ ['\r'])) = trim (.ofList line) :=
        @trim_surrounded line _ [] ['\r'] (by simp) nofun (forall_mem_singleton.2 rfl)
      have hrest := @ih [] not_mem_nil
      rw [nil_append, nil_append] at hrest
      rw [hends, splitOn_append_cons_self_of_not_mem hreturn, splitOn_append_cons_self_of_not_mem h,
        map_cons, map_cons, htrim, hrest]
    · have hline : '\n' ∉ line ++ [c] := by simp [h, Ne.symm hc]
      simpa [crlf, hc] using ih hline

theorem trimmedLines_crlf (text : String) :
    trimmedLines (.ofList (crlf text.toList)) = trimmedLines text := by
  have hlines := @trim_splitOn_crlf (trim text).toList [] not_mem_nil
  rw [nil_append, nil_append] at hlines
  rw [trimmedLines, trim_crlf, String.ofList_toList, hlines, trimmedLines]

variable {label : String}

theorem parseArmorLabel_eq_some_iff {line start : String} :
    parseArmorLabel line start = some label ↔ line = boundaryLine start label := by
  simp only [parseArmorLabel, boundaryLine, Option.bind_eq_bind, Option.bind_eq_some_iff,
    dropPrefix?_eq_some_iff, dropSuffix?_eq_some_iff, beq_iff_eq, Option.pure_def,
    Option.some.injEq]
  constructor
  · rintro ⟨_, ⟨_, hline, rfl⟩, _, ⟨_, rfl, rfl⟩, rfl⟩
    exact String.ext (by simp [hline])
  · rintro rfl
    exact ⟨label.toList ++ "-----".toList, ⟨_, by simp, rfl⟩, label.toList, ⟨_, rfl, rfl⟩, by simp⟩

variable {base64Decode : List Char → Option (List UInt8)} {text : String} {payload : List UInt8}

theorem trim_ne_empty (h : 2 ≤ (trimmedLines text).length) : trim text ≠ "" := by
  intro htrim
  simp [trimmedLines, htrim] at h

theorem unwrapArmored_of_short (h : (trimmedLines text).length < 2) :
    unwrapArmored base64Decode text label = .error .boundary := by
  by_cases htrim : trim text = ""
  · exact if_pos htrim
  · exact (if_neg htrim).trans (if_pos h)

/-- Only the lines of the text count. -/
theorem unwrapArmored_congr {text' : String} (h : trimmedLines text = trimmedLines text') :
    unwrapArmored base64Decode text label = unwrapArmored base64Decode text' label := by
  by_cases hlen : (trimmedLines text).length < 2
  · rw [unwrapArmored_of_short hlen, unwrapArmored_of_short (h ▸ hlen)]
  · have hlong := Nat.not_lt.1 hlen
    rw [unwrapArmored, unwrapArmored, if_neg (trim_ne_empty hlong),
      if_neg (trim_ne_empty (h ▸ hlong))]
    unfold trimmedLines at h
    dsimp only
    rw [h]

theorem unwrapArmored_of_lines {header footer : String} {body : List String}
    (h : trimmedLines text = header :: (body ++ [footer])) :
    unwrapArmored base64Decode text label = .ok payload ↔
      header = boundaryLine "-----BEGIN " label ∧ footer = boundaryLine "-----END " label ∧
        base64Decode (body.flatMap String.toList) = some payload := by
  have hlast : (header :: (body ++ [footer])).getLastD "" = footer := by
    rw [← cons_append, getLastD_concat]
  rw [unwrapArmored, if_neg (trim_ne_empty (by simp [h])),
    ← @parseArmorLabel_eq_some_iff label header, ← @parseArmorLabel_eq_some_iff label footer]
  unfold trimmedLines at h
  dsimp only
  rw [h, if_neg (by simp), headD_cons, hlast, tail_cons, dropLast_concat]
  cases parseArmorLabel header "-----BEGIN " with
  | none => simp
  | some found =>
    cases parseArmorLabel footer "-----END " with
    | none => simp
    | some last =>
      by_cases hfound : found = label
      · by_cases hsame : last = label
        · cases base64Decode (body.flatMap String.toList) <;> simp [hfound, hsame]
        · simp [hfound, hsame, Ne.symm hsame]
      · simp only [hfound, Option.some.injEq, false_and, iff_false]
        split_ifs <;> nofun

theorem lines_of_unwrapArmored (h : unwrapArmored base64Decode text label = .ok payload) :
    ∃ body, trimmedLines text =
        boundaryLine "-----BEGIN " label :: (body ++ [boundaryLine "-----END " label]) ∧
      base64Decode (body.flatMap String.toList) = some payload := by
  have hlen : 2 ≤ (trimmedLines text).length :=
    Nat.not_lt.1 fun hshort => by simp [unwrapArmored_of_short hshort] at h
  obtain ⟨header, lines, hlines⟩ := exists_cons_of_length_pos (Nat.lt_of_lt_of_le two_pos hlen)
  obtain rfl | ⟨body, footer, rfl⟩ := lines.eq_nil_or_concat
  · simp [hlines] at hlen
  · rw [concat_eq_append] at hlines
    obtain ⟨rfl, rfl, hdecode⟩ := (unwrapArmored_of_lines hlines).1 h
    exact ⟨body, hlines, hdecode⟩

section Round

variable {T : ReceiverSuite}

def armorLines (T : ReceiverSuite) (label : String) (payload : List UInt8) : List (List Char) :=
  ("-----BEGIN " ++ label ++ "-----").toList ::
    ((T.base64Encode payload).toChunks armorLineLen ++ [("-----END " ++ label ++ "-----").toList])

theorem toList_wrapArmored : (wrapArmored T label payload).toList =
    (armorLines T label payload).flatMap (· ++ ['\n']) := by
  have hnewline : "\n".toList = ['\n'] := by decide
  unfold wrapArmored armorLines
  generalize "-----BEGIN " = start, "-----END " = finish, "-----" = dashes, "\n" = newline
    at hnewline ⊢
  simp [String.toList_join, flatMap_map, hnewline]

variable (hchars : ∀ c ∈ T.base64Encode payload, isWhitespace c = false)
include hchars

theorem not_space_of_mem {chunk : List Char} (hchunk : chunk ∈ (T.base64Encode payload).toChunks armorLineLen)
    {c : Char} (hc : c ∈ chunk) : isWhitespace c = false :=
  hchars c (flatten_toChunks armorLineLen (T.base64Encode payload) ▸ mem_flatten_of_mem hchunk hc)

theorem trimmedLines_wrapArmored : trimmedLines (wrapArmored T label payload) =
      ((boundaryLine "-----BEGIN " label).toList.splitOn '\n' ++
        ((T.base64Encode payload).toChunks armorLineLen ++
          (boundaryLine "-----END " label).toList.splitOn '\n')).map
        fun line => trim (.ofList line) := by
  have hnewline : ∀ chunk ∈ (T.base64Encode payload).toChunks armorLineLen, '\n' ∉ chunk :=
    fun chunk hchunk hmem => absurd (not_space_of_mem hchars hchunk hmem) (by decide)
  have htext : (wrapArmored T label payload).toList = [] ++ ((boundaryLine "-----BEGIN " label).toList ++
      '\n' :: (((T.base64Encode payload).toChunks armorLineLen).flatMap (· ++ ['\n']) ++
        (boundaryLine "-----END " label).toList)) ++ ['\n'] := by
    rw [toList_wrapArmored]
    simp [armorLines, boundaryLine]
  rw [← splitOn_lines hnewline, ← splitOn_append_cons_self, trimmedLines,
    trim_surrounded htext nofun (forall_mem_singleton.2 rfl), trim_of_dashes, String.toList_ofList]
  all_goals simp [boundaryLine, getLast?_append, getLast?_cons]

theorem trimmedLines_of_label (hlabel : '\n' ∉ label.toList) :
    trimmedLines (wrapArmored T label payload) = boundaryLine "-----BEGIN " label ::
        (((T.base64Encode payload).toChunks armorLineLen).map String.ofList ++
          [boundaryLine "-----END " label]) := by
  have hchunk : ∀ chunk ∈ (T.base64Encode payload).toChunks armorLineLen,
      trim (.ofList chunk) = .ofList chunk := fun chunk hchunk =>
    trim_of_ends (fun c hc => not_space_of_mem hchars hchunk (by simpa using mem_of_mem_head? hc))
      fun c hc => not_space_of_mem hchars hchunk (by simpa using mem_of_mem_getLast? hc)
  rw [trimmedLines_wrapArmored hchars, splitOn_eq_singleton (by simpa [boundaryLine] using hlabel),
    splitOn_eq_singleton (by simpa [boundaryLine] using hlabel), map_append, map_append,
    map_congr_left hchunk, map_singleton, map_singleton, String.ofList_toList, String.ofList_toList,
    trim_of_dashes, trim_of_dashes, singleton_append]
  all_goals simp [boundaryLine, getLast?_append, getLast?_cons]

omit hchars

/-- **Armored text is read back**, if the characters of base64 are no white space. -/
theorem unwrapArmored_wrapArmored
    (hdecode : base64Decode (T.base64Encode payload) = some payload)
    (hchars : ∀ c ∈ T.base64Encode payload, isWhitespace c = false) (hlabel : '\n' ∉ label.toList) :
    unwrapArmored base64Decode (wrapArmored T label payload) label = .ok payload := by
  refine (unwrapArmored_of_lines (trimmedLines_of_label hchars hlabel)).2 ⟨rfl, rfl, ?_⟩
  simpa [flatMap_map, flatMap_id', flatten_toChunks] using hdecode

theorem unwrapArmored_other {other : String} {read : List UInt8} (hother : other ≠ label)
    (hchars : ∀ c ∈ T.base64Encode payload, isWhitespace c = false)
    (hdash : ∀ text, '-' ∈ text → base64Decode text = none) :
    unwrapArmored base64Decode (wrapArmored T label payload) other ≠ .ok read := by
  intro h
  obtain ⟨body, hlines, hdecode⟩ := lines_of_unwrapArmored h
  by_cases hlabel : '\n' ∈ label.toList
  · -- a line feed in the label moves the start of the footer into the body, with its dashes
    obtain ⟨first, rest, hsplit, hfirst⟩ := eq_append_cons_of_mem hlabel
    have hfooter : (boundaryLine "-----END " label).toList =
        ("-----END ".toList ++ first) ++ '\n' :: (rest ++ "-----".toList) := by
      simp [boundaryLine, hsplit]
    rw [trimmedLines_wrapArmored hchars, hfooter, splitOn_append_cons_self_of_not_mem
      (by simpa using hfirst)] at hlines
    rw [map_append, map_append, map_cons, ← append_assoc] at hlines
    have hbody := mem_of_between hlines (by simp [splitOn_ne_nil]) (by simp [splitOn_ne_nil])
    rw [hdash _ (mem_flatMap.2 ⟨_, hbody, mem_trim (by simp) (by decide)⟩)] at hdecode
    cases hdecode
  · rw [trimmedLines_of_label hchars hlabel] at hlines
    have hheader := parseArmorLabel_eq_some_iff.2 (cons.inj hlines).1
    rw [parseArmorLabel_eq_some_iff.2 rfl] at hheader
    exact hother (Option.some.inj hheader).symm

/-- **Armored text.**  A wrapped payload is read back with its label and with no other; what is read
has the label at both ends; CRLF and white space around the text are not seen. -/
theorem armored_text_read (hdecode : base64Decode (T.base64Encode payload) = some payload)
    (hchars : ∀ c ∈ T.base64Encode payload, isWhitespace c = false)
    (hdash : ∀ text, '-' ∈ text → base64Decode text = none) :
    (∀ label : String, '\n' ∉ label.toList →
      unwrapArmored base64Decode (wrapArmored T label payload) label = .ok payload) ∧
    (∀ label other, other ≠ label →
      ∃ e, unwrapArmored base64Decode (wrapArmored T label payload) other = .error e) ∧
    (∀ text label read, unwrapArmored base64Decode text label = .ok read → ∃ body,
      trimmedLines text =
        boundaryLine "-----BEGIN " label :: (body ++ [boundaryLine "-----END " label])) ∧
    ∀ text label, unwrapArmored base64Decode (.ofList (crlf text.toList)) label =
        unwrapArmored base64Decode text label ∧
      ∀ left right : String, (∀ c ∈ left.toList ++ right.toList, isWhitespace c) →
        unwrapArmored base64Decode (left ++ text ++ right) label =
          unwrapArmored base64Decode text label := by
  refine ⟨fun label hlabel => unwrapArmored_wrapArmored hdecode hchars hlabel,
    fun label other hother => ?_, fun text label read h => ?_, fun text label =>
    ⟨unwrapArmored_congr (trimmedLines_crlf text), fun left right hspace => ?_⟩⟩
  · cases h : unwrapArmored base64Decode (wrapArmored T label payload) other with
    | error e => exact ⟨e, rfl⟩
    | ok read => exact absurd h (unwrapArmored_other hother hchars hdash)
  · obtain ⟨body, hlines, -⟩ := lines_of_unwrapArmored h
    exact ⟨body, hlines⟩
  · rw [forall_mem_append] at hspace
    have htrim := @trim_surrounded text.toList (left ++ text ++ right) left.toList right.toList
      (by simp) hspace.1 hspace.2
    rw [String.ofList_toList] at htrim
    exact unwrapArmored_congr (by rw [trimmedLines, htrim, trimmedLines])

/-- The decoder at the base64 of three bytes. -/
def zerosDecode (text : List Char) : Option (List UInt8) :=
  if text = "AAAA".toList then some [0, 0, 0] else none

theorem three_zeros_read : ∃ T : ReceiverSuite, unwrapArmored zerosDecode
    (wrapArmored T "PNW-MEMBER-CERT" [0, 0, 0]) "PNW-MEMBER-CERT" = .ok [0, 0, 0] := by
  have hdash : ∀ text, '-' ∈ text → zerosDecode text = none := by
    intro text hmem
    exact if_neg fun h => by simp [h] at hmem
  exact ⟨{ TrustStore.sampleReceiverSuite with base64Encode := fun _ => "AAAA".toList },
    (armored_text_read (by rfl) (by simp [isWhitespace]) hdash).1 _ (by decide)⟩

end Round

end PactMesh
