import Mathlib.Data.List.Basic

/-!
# Paths of `pbote::fs`

`HashedStorage::Path` stores the object of an identifier in the file
`root/prefix1 c/prefix2 ident.suffix`, where `c` is the first character of the identifier and
every `/` and `\` of the identifier has become `-`. So the file of a non-empty identifier without
a NUL lies two levels below the storage's root, in a directory and under a name that the system
resolves as written, whatever else the identifier holds (`path_layout`). Two identifiers get the
same path exactly when they agree once their separators are replaced (`path_eq_path_iff`):
`a/b`, `a\b` and `a-b` get one path, and `Remove` of one of them removes the others' object.
An empty identifier puts the terminating NUL of `safe_ident[0]` into the path, which the system
reads as ending there.

`DetectDataDir` picks the data directory: the command-line value, else a directory of the
service, of the user's home, or of `/tmp`.
-/

namespace Pbote.FS

/-- `pbote::fs::dirSep`. -/
def dirSep : String := "/"

/-- `pbote::fs::DetectDataDir`, with `getenv("HOME")` as `home`, `none` for a null pointer. -/
def detectDataDir (appName cmdlineParam : String) (isService : Bool) (home : Option String) : String :=
  if cmdlineParam ≠ "" then cmdlineParam
  else if isService then "/var/lib/" ++ appName
  else match home with
    | some h => if h.length > 0 then h ++ "/." ++ appName else "/tmp/" ++ appName
    | none => "/tmp/" ++ appName

/-- A `pbote::fs::HashedStorage`: its name, the prefixes of its directories and files, the
suffix of its files, and the root `SetPlace` sets. -/
structure HashedStorage where
  name : String
  prefix1 : String
  prefix2 : String
  suffix : String
  root : String

/-- `HashedStorage::SetPlace`. -/
def HashedStorage.setPlace (hs : HashedStorage) (path : String) : HashedStorage :=
  { hs with root := path ++ dirSep ++ hs.name }

/-- `std::replace(s.begin(), s.end(), a, b)`. -/
def replaceChar (a b : Char) (s : List Char) : List Char := s.map fun c => if c = a then b else c

/-- The identifier after both `std::replace` passes of `Path`. -/
def safeIdent (ident : String) : List Char := replaceChar '\\' '-' (replaceChar '/' '-' ident.data)

/-- `safe_ident[0]`, which is the terminating `'\0'` of an empty string. -/
def firstChar (s : List Char) : Char := s.headD (Char.ofNat 0)

/-- `HashedStorage::Path`. -/
def HashedStorage.path (hs : HashedStorage) (ident : String) : String :=
  hs.root ++ dirSep ++ hs.prefix1 ++ String.mk [firstChar (safeIdent ident)] ++ dirSep ++
    hs.prefix2 ++ String.mk (safeIdent ident) ++ "." ++ hs.suffix

/-- The directories `HashedStorage::Init` creates below the root, one per character. -/
def HashedStorage.initDirs (hs : HashedStorage) (chars : List Char) : List String :=
  chars.map fun c => hs.root ++ dirSep ++ hs.prefix1 ++ String.mk [c]

/-! ## The layout -/

theorem path_data (hs : HashedStorage) (ident : String) :
    (hs.path ident).data = hs.root.data ++ '/' :: (hs.prefix1.data ++ [firstChar (safeIdent ident)]) ++
      '/' :: (hs.prefix2.data ++ safeIdent ident ++ '.' :: hs.suffix.data) := by
  simp [HashedStorage.path, dirSep, String.data_append]

theorem not_mem_safeIdent_slash (ident : String) : '/' ∉ safeIdent ident := by
  simp only [safeIdent, replaceChar, List.map_map, List.mem_map, Function.comp_apply, not_exists, not_and]
  intro c _
  split_ifs <;> simp_all

theorem not_mem_safeIdent_backslash (ident : String) : '\\' ∉ safeIdent ident := by
  simp only [safeIdent, replaceChar, List.mem_map, not_exists, not_and]
  intro c _
  split_ifs <;> simp_all

/-- A path component the system resolves as a name inside its directory: it holds no
separator and no NUL, which ends a path, and a character other than `.`, so it is neither empty
nor `.` nor `..`. -/
def IsName (s : List Char) : Prop := '/' ∉ s ∧ '\\' ∉ s ∧ Char.ofNat 0 ∉ s ∧ ∃ c ∈ s, c ≠ '.'

def NoSep (s : List Char) : Prop := '/' ∉ s ∧ '\\' ∉ s ∧ Char.ofNat 0 ∉ s

theorem noSep_safeIdent {ident : String} (h : Char.ofNat 0 ∉ ident.data) : NoSep (safeIdent ident) := by
  refine ⟨not_mem_safeIdent_slash ident, not_mem_safeIdent_backslash ident, ?_⟩
  simp only [safeIdent, replaceChar, List.map_map, List.mem_map, Function.comp_apply, not_exists, not_and]
  intro c hc
  split_ifs <;> first | decide | exact fun he => h (he ▸ hc)

theorem firstChar_mem {s : List Char} (h : s ≠ []) : firstChar s ∈ s := by
  cases s with
  | nil => exact absurd rfl h
  | cons x s => exact List.mem_cons_self x s

/-- Where prefixes and suffix hold no separator and no NUL, the directory prefix and the suffix
each hold a character other than `.`, and the identifier is not empty and holds no NUL, the file
of the identifier lies in a directory right below the root: both the directory and the file are
names the system resolves inside their directory. -/
theorem path_layout (hs : HashedStorage) (hp1 : NoSep hs.prefix1.data) (hp2 : NoSep hs.prefix2.data)
    (hsuf : NoSep hs.suffix.data) (hd1 : ∃ c ∈ hs.prefix1.data, c ≠ '.') (hd2 : ∃ c ∈ hs.suffix.data, c ≠ '.')
    (ident : String) (hid : ident.data ≠ [] ∧ Char.ofNat 0 ∉ ident.data) :
    ∃ dir file, (hs.path ident).data = hs.root.data ++ '/' :: dir ++ '/' :: file ∧ IsName dir ∧ IsName file := by
  have hsafe := noSep_safeIdent hid.2
  have hne : safeIdent ident ≠ [] := by simpa [safeIdent, replaceChar] using hid.1
  have hc := firstChar_mem hne
  obtain ⟨c1, hc1, hc1'⟩ := hd1
  obtain ⟨c2, hc2, hc2'⟩ := hd2
  refine ⟨_, _, path_data hs ident, ⟨?_, ?_, ?_, c1, by simp [hc1], hc1'⟩, ⟨?_, ?_, ?_, c2, by simp [hc2], hc2'⟩⟩
  all_goals simp only [List.mem_append, List.mem_singleton, List.mem_cons, List.not_mem_nil, or_false, not_or]
  · exact ⟨hp1.1, fun h => hsafe.1 (by rw [h]; exact hc)⟩
  · exact ⟨hp1.2.1, fun h => hsafe.2.1 (by rw [h]; exact hc)⟩
  · exact ⟨hp1.2.2, fun h => hsafe.2.2 (by rw [h]; exact hc)⟩
  · exact ⟨⟨hp2.1, hsafe.1⟩, by decide, hsuf.1⟩
  · exact ⟨⟨hp2.2.1, hsafe.2.1⟩, by decide, hsuf.2.1⟩
  · exact ⟨⟨hp2.2.2, hsafe.2.2⟩, by decide, hsuf.2.2⟩

def sampleStorage : HashedStorage := ⟨"email", "d", "", "dat", "/var/lib/pboted/email"⟩

/-- The identifier `../x` lands in the directory `d.`, as the file `..-x.dat`. -/
theorem path_layout_sample :
    ∃ dir file, (sampleStorage.path "../x").data = sampleStorage.root.data ++ '/' :: dir ++ '/' :: file ∧
      IsName dir ∧ IsName file :=
  path_layout sampleStorage ⟨by decide, by decide, by decide⟩ ⟨by decide, by decide, by decide⟩
    ⟨by decide, by decide, by decide⟩ ⟨'d', by decide, by decide⟩ ⟨'d', by decide, by decide⟩ "../x" ⟨by decide, by decide⟩

/-- Two identifiers get the same path exactly when they agree once `/` and `\` are `-`. -/
theorem path_eq_path_iff (hs : HashedStorage) (a b : String) : hs.path a = hs.path b ↔ safeIdent a = safeIdent b := by
  constructor
  · intro h
    have h := congrArg String.data h
    rw [path_data, path_data] at h
    simp only [List.append_assoc, List.cons_append, List.append_cancel_left_eq, List.cons.injEq,
      List.singleton_append] at h
    exact List.append_cancel_right h.2.2.2
  · intro h
    simp only [HashedStorage.path, h]

example : sampleStorage.path "a/b" = sampleStorage.path "a-b" ∧ sampleStorage.path "a-b" = "/var/lib/pboted/email/da/a-b.dat" := by
  decide

end Pbote.FS
