import Pc20iii.Net.Lan
import Mathlib.Data.List.DropRight

/-!
# Paths of EtherDFS

`edfs.c`: the functions on strings. A guest path is in DOS form, with backslashes and 8.3
names; a host path is relative to the root, with slashes.

A character is a byte, and `isprint` and `toupper` are those of the C locale. The arrays
that the strings are put into have no bound here; the callers record how much they put
into which array.
-/

namespace Pc20iii

/-- `EDFS_PATH83_MAX`. -/
def edfsPath83Max : ℕ := 260

/-- `EDFS_PATH_MAX`. -/
def edfsPathMax : ℕ := 512

/-- `PATH_MAX`. -/
def pathMax : ℕ := 4096

/-- `'/'`. -/
def slash : Byte := 0x2F

/-- `'\\'`. -/
def backslash : Byte := 0x5C

/-- `'.'`. -/
def dot : Byte := 0x2E

/-- `isprint`. -/
def isPrint (c : Byte) : Bool := 0x20 ≤ c && c ≤ 0x7E

/-- `toupper`. -/
def toUpper (c : Byte) : Byte := if 0x61 ≤ c && c ≤ 0x7A then c - 0x20 else c

/-- The loop of `unixpath_to_path83`, with its variables `in_ext`, `count_8` and
`count_3`. -/
def unixpathToPath83Loop : CString → Bool → ℕ → ℕ → CString
  | [], _, _, _ => []
  | c :: rest, inExt, count8, count3 =>
    if c = slash then
      backslash :: unixpathToPath83Loop rest false 0 0
    else if c = dot then
      if inExt then
        if count3 + 1 > 3 then unixpathToPath83Loop rest inExt count8 (count3 + 1)
        else dot :: unixpathToPath83Loop rest inExt count8 (count3 + 1)
      else dot :: unixpathToPath83Loop rest true count8 count3
    else if isPrint c then
      if inExt then
        if count3 + 1 > 3 then unixpathToPath83Loop rest inExt count8 (count3 + 1)
        else toUpper c :: unixpathToPath83Loop rest inExt count8 (count3 + 1)
      else
        if count8 + 1 > 8 then unixpathToPath83Loop rest inExt (count8 + 1) count3
        else toUpper c :: unixpathToPath83Loop rest inExt (count8 + 1) count3
    else unixpathToPath83Loop rest inExt count8 count3

/-- `unixpath_to_path83`. -/
def unixpathToPath83 (path : CString) : CString := unixpathToPath83Loop path false 0 0

/-- The loop of `path83_to_filefcb`, with its variables `n`, `in_ext` and `out`. -/
def path83ToFilefcbLoop : CString → ℕ → Bool → List Byte → List Byte
  | [], _, _, out => out
  | c :: rest, n, inExt, out =>
    if c = dot ∧ inExt = false then path83ToFilefcbLoop rest 8 true out
    else if n + 1 ≥ 11 then out.set n c
    else path83ToFilefcbLoop rest (n + 1) inExt (out.set n c)

/-- `path83_to_filefcb`: the eleven characters of a name in an FCB. -/
def path83ToFilefcb (path83 : CString) : List Byte :=
  let out := List.replicate 11 0x20
  if path83 = [dot] then out.set 0 dot
  else if path83 = [dot, dot] then (out.set 0 dot).set 1 dot
  else path83ToFilefcbLoop (path83.rtakeWhile (· ≠ backslash)) 0 false out

/-- `path83_dirname`: what is before the last backslash, or everything. -/
def path83Dirname (path83 : CString) : CString :=
  if backslash ∈ path83 then (path83.rdropWhile (· ≠ backslash)).dropLast else path83

/-- The loop of `path83_to_unixpath`. -/
def path83Convert : CString → CString
  | [] => []
  | c :: rest =>
    if c = backslash then slash :: path83Convert rest
    else if isPrint c then c :: path83Convert rest
    else path83Convert rest

/-- `time_to_dos_time`. -/
def timeToDosTime (tm : Tm) : Word :=
  BitVec.ofInt 16 (tm.sec / 2) + BitVec.ofInt 16 tm.min <<< 5 + BitVec.ofInt 16 tm.hour <<< 11

/-- `time_to_dos_date`. -/
def timeToDosDate (tm : Tm) : Word :=
  BitVec.ofInt 16 tm.mday + BitVec.ofInt 16 (tm.mon + 1) <<< 5 +
    BitVec.ofInt 16 (tm.year - 80) <<< 9

/-- `bsd_checksum`. -/
def bsdChecksum (buffer : ℕ → Byte) (len : ℕ) : Word :=
  ((List.range len).foldl (fun (checksum : BitVec 32) i =>
    ((checksum >>> 1) + ((checksum &&& 1) <<< 15) + (buffer i).setWidth 32) &&& 0xFFFF) 0).setWidth
      16

/-- `edfs_match`: the comparison ends at the end of either string. -/
def edfsMatchLoop : List Byte → List Byte → Bool
  | f :: filefcb, p :: pattern =>
    if p ≠ 0x3F ∧ p ≠ f then false else edfsMatchLoop filefcb pattern
  | _, _ => true

/-- `edfs_match`. -/
def edfsMatch (filefcb pattern : List Byte) : Bool :=
  edfsMatchLoop (filefcb.take 11) (pattern.take 11)

/-- The string that starts in a buffer, up to its terminator. -/
def cStringOf (bytes : List Byte) : CString := bytes.takeWhile (· ≠ 0)

/-- `"%s/%s"`. -/
def joinPath (dir path : CString) : CString := dir ++ slash :: path

end Pc20iii
