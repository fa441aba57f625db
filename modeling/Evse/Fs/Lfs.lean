import Evse.Lib.CString
import Evse.Lib.Environment
import Evse.Lib.Run
import Mathlib.Data.Int.Order.Basic
import Mathlib.Data.Int.Bitwise

/-!
# The adapter of the file system

`lfs.c` reads and writes files through `littlefs`, which is given by what its functions answer. A file that is open is a structure on the stack of the function that opened it, and `littlefs` keeps a pointer to it until it is closed. A structure is named by the number of calls before the function was entered, so that no two have one name.

Metrics and the clock are left out, and so are the bytes that are read: they go to the caller's buffer.
-/

namespace Evse.Lfs

open CString Environment StepRun

def fsFilenameMax : Nat := 32

def ENOENT : Int := 2
def EBADF : Int := 9
def EISDIR : Int := 21

def LFS_ERR_OK : Int := 0
def LFS_ERR_NOENT : Int := -2
def LFS_ERR_EXIST : Int := -17
def LFS_ERR_ISDIR : Int := -21

def LFS_O_RDONLY : Nat := 1
def LFS_O_WRONLY : Nat := 2
def LFS_O_RDWR : Nat := 3
def LFS_O_CREAT : Nat := 0x0100
def LFS_O_APPEND : Nat := 0x0800

/-- Calls of `littlefs`. -/
inductive Call where
  | mkdir (path : Text)
  | fileOpen (file : Nat) (path : Text) (flags : Nat)
  | fileSeek (file : Nat) (off : Int)
  | fileSize (file : Nat)
  | fileRead (file size : Nat)
  | fileWrite (file : Nat) (data : List UInt8)
  | fileClose (file : Nat)
  deriving DecidableEq

abbrev Log := Environment.Log Call Int

/-- A file is open from a successful `lfs_file_open` to the next `lfs_file_close`, whatever that answers. -/
def use : Call × Int → Use
  | (.fileOpen file _ _, err) => if err = LFS_ERR_OK then .takes file else .neither
  | (.fileClose file, _) => .returns file
  | _ => .neither

def openFiles (log : Log) : Finset Nat := held use log

/-! ### Numbers -/

/-- A cast to `lfs_size_t`, or to a `size_t`, of 32 bits. -/
def toSize (x : Int) : Nat := (x % 2 ^ 32).toNat

/-- A cast to `lfs_soff_t`. -/
def toOffset (x : Nat) : Int := (x : Int).bmod (2 ^ 32)

/-- `|` of two `int`s. -/
def orInt (x y : Int) : Int := (BitVec.ofInt 32 x ||| BitVec.ofInt 32 y).toInt

/-! ### Directories -/

def slash : UInt8 := 47

def slashFrom (i : Nat) : Text → Nat
  | [] => 0
  | c :: rest => if c = slash then i else slashFrom (i + 1) rest

/-- The position of the first slash; also 0 if there is none. -/
def findDirTraillingSlash (path : Text) : Nat := slashFrom 0 path

def skipLeadingSlashes : Text → Text
  | [] => []
  | c :: rest => if c = slash then skipLeadingSlashes rest else c :: rest

section Operations

variable (lfs : Log → Call → Int)

/-- The loop of `create_directory` over `p`, where `rest` is what is left of it and `offset` is the length of the last directory with its slash. One round needs at least one character. -/
def createDirectories (p : Text) : Nat → Text → Nat → Log → Int × Log
  | 0, _, _, log => (0, log)
  | _ + 1, [], _, log => (0, log)
  | rounds + 1, c :: rest, offset, log =>
      let slash := findDirTraillingSlash (c :: rest)
      if slash = 0 then createDirectories p rounds rest offset log
      else
        let made := ask lfs (.mkdir (p.take (min (offset + slash) fsFilenameMax))) log
        if made.1 ≠ 0 ∧ made.1 ≠ LFS_ERR_EXIST then made
        else createDirectories p rounds (rest.drop slash) (offset + slash + 1) made.2

def createDirectory (filepath : Text) (log : Log) : Int × Log :=
  let p := skipLeadingSlashes filepath
  createDirectories lfs p p.length p 0 log

/-! ### Files -/

/-- Seek unless the offset is zero. -/
def seekTo (file offset : Nat) (log : Log) : Int × Log :=
  if offset = 0 then (LFS_ERR_OK, log) else ask lfs (.fileSeek file (toOffset offset)) log

def writeCore (filepath : Text) (offset : Nat) (data : List UInt8) (flags : Nat) (log : Log) : Int × Log :=
  let file := log.length
  let made := createDirectory lfs filepath log
  if made.1 ≠ 0 then made
  else
    let opened := ask lfs (.fileOpen file filepath flags) made.2
    if opened.1 ≠ LFS_ERR_OK then (if opened.1 = LFS_ERR_NOENT then -ENOENT else opened.1, opened.2)
    else
      let sought := seekTo lfs file offset opened.2
      if sought.1 < 0 then sought
      else
        let written := ask lfs (.fileWrite file (data.take (toSize data.length))) sought.2
        let closed := ask lfs (.fileClose file) written.2
        (orInt written.1 closed.1, closed.2)

def doWrite (filepath : Text) (offset : Nat) (data : List UInt8) (log : Log) : Int × Log :=
  writeCore lfs filepath offset data (LFS_O_RDWR ||| LFS_O_CREAT) log

def doAppend (filepath : Text) (data : List UInt8) (log : Log) : Int × Log :=
  writeCore lfs filepath 0 data (LFS_O_WRONLY ||| LFS_O_CREAT ||| LFS_O_APPEND) log

def doRead (filepath : Text) (offset bufsize : Nat) (log : Log) : Int × Log :=
  let file := log.length
  let opened := ask lfs (.fileOpen file filepath LFS_O_RDONLY) log
  if opened.1 ≠ LFS_ERR_OK then (if opened.1 = LFS_ERR_NOENT then -ENOENT else opened.1, opened.2)
  else
    let fileSize := ask lfs (.fileSize file) opened.2
    let len := min (toSize fileSize.1) (toSize bufsize)
    if len = 0 then (-EBADF, fileSize.2)
    else
      let sought := seekTo lfs file offset fileSize.2
      if sought.1 < 0 then sought
      else
        let read := ask lfs (.fileRead file len) sought.2
        let closed := ask lfs (.fileClose file) read.2
        (read.1, closed.2)

/-- The result, and the size if it has been written. -/
def doSize (filepath : Text) (log : Log) : (Int × Option Nat) × Log :=
  let file := log.length
  let opened := ask lfs (.fileOpen file filepath LFS_O_RDONLY) log
  if opened.1 ≠ LFS_ERR_OK then
    if opened.1 = LFS_ERR_NOENT then ((-ENOENT, none), opened.2)
    else if opened.1 = LFS_ERR_ISDIR then ((-EISDIR, none), opened.2)
    else ((opened.1, none), opened.2)
  else
    let fileSize := ask lfs (.fileSize file) opened.2
    let closed := ask lfs (.fileClose file) fileSize.2
    ((closed.1, some (toSize fileSize.1)), closed.2)

/-- The operations on files. -/
inductive Op where
  | read (filepath : Text) (offset bufsize : Nat)
  | write (filepath : Text) (offset : Nat) (data : List UInt8)
  | append (filepath : Text) (data : List UInt8)
  | size (filepath : Text)

def step (log : Log) : Op → Log
  | .read filepath offset bufsize => (doRead lfs filepath offset bufsize log).2
  | .write filepath offset data => (doWrite lfs filepath offset data log).2
  | .append filepath data => (doAppend lfs filepath data log).2
  | .size filepath => (doSize lfs filepath log).2

end Operations

end Evse.Lfs
