import DeadDrop.Assoc
import DeadDrop.Path

/-!
# Disks

A tree of directories and files, and a working directory in it from which paths are followed. The
tree is all there is, or the part of a larger one that a program may look at; a path that leads out
of it leads nowhere. There are no links, so a path names one place at most.
-/

namespace DeadDrop

inductive DiskNode where
  | directory
  | file (content : Bytes)
  deriving DecidableEq, Repr

/-- A tree and its working directory. Places are given by the names that lead to them from the root
of the tree, which is always a directory; `rooted` tells whether absolute paths begin there. -/
structure Disk where
  nodes : Table (List Text) DiskNode
  home : List Text
  rooted : Bool

namespace Disk

/-- A part of a disk with nothing in it but the working directory, right below the root. -/
def empty : Disk where
  nodes := Table.empty.insert ["home".toList] .directory
  home := ["home".toList]
  rooted := false

def node? (disk : Disk) (place : List Text) : Option DiskNode :=
  if place.isEmpty then some .directory else disk.nodes.get? place

def isDirectoryAt (disk : Disk) (place : List Text) : Bool :=
  disk.node? place = some .directory

/-- The place above another one. Above the root there is the root, if it is the root of all. -/
def above? (disk : Disk) (place : List Text) : Option (List Text) :=
  if place.isEmpty && !disk.rooted then none else some place.dropLast

def start? (disk : Disk) (path : Text) : Option (List Text) :=
  if !Path.isUsable path then none
  else if !Path.isAbsolute path then some disk.home
  else if disk.rooted then some []
  else none

/-- Follows pieces of a path from a place. Every piece but the last needs a directory, and so does
a void last piece. -/
def follow? (disk : Disk) (place : List Text) : List Text → Option (List Text)
  | [] => some place
  | piece :: rest =>
    if !disk.isDirectoryAt place then none
    else if Path.isVoid piece then follow? disk place rest
    else if piece = "..".toList then (disk.above? place).bind fun place => follow? disk place rest
    else if (disk.node? (place ++ [piece])).isSome then follow? disk (place ++ [piece]) rest
    else none

def find? (disk : Disk) (path : Text) : Option DiskNode :=
  ((disk.start? path).bind fun place => disk.follow? place (Path.pieces path)).bind disk.node?

def isFile (disk : Disk) (path : Text) : Bool :=
  match disk.find? path with
  | some (.file _) => true
  | _ => false

def read? (disk : Disk) (path : Text) : Option Bytes :=
  match disk.find? path with
  | some (.file content) => some content
  | _ => none

/-- Follows pieces of a path from a place, and makes the directories that are missing. -/
def makeFrom? (disk : Disk) (place : List Text) : List Text → Option Disk
  | [] => if disk.isDirectoryAt place then some disk else none
  | piece :: rest =>
    if !disk.isDirectoryAt place then none
    else if Path.isVoid piece then makeFrom? disk place rest
    else if piece = "..".toList then (disk.above? place).bind fun place => makeFrom? disk place rest
    else
      let inner := place ++ [piece]
      if (disk.node? inner).isSome then makeFrom? disk inner rest
      else makeFrom? { disk with nodes := disk.nodes.insert inner .directory } inner rest

/-- Makes the directory of a path and all directories on the way to it, as far as they are missing.
The empty path asks for nothing. -/
def makeDirectories? (disk : Disk) (path : Text) : Option Disk :=
  if path.isEmpty then some disk
  else (disk.start? path).bind fun place => disk.makeFrom? place (Path.pieces path)

/-- Writes a file in place of any other, in a directory that is there. -/
def write? (disk : Disk) (path : Text) (content : Bytes) : Option Disk :=
  let names := Path.pieces path
  match (disk.start? path).bind fun place => disk.follow? place names.dropLast, names.getLast? with
  | some place, some name =>
    if Path.isVoid name || name = "..".toList then none
    else if disk.isDirectoryAt place && !disk.isDirectoryAt (place ++ [name]) then
      some { disk with nodes := disk.nodes.insert (place ++ [name]) (.file content) }
    else none
  | _, _ => none

end Disk

end DeadDrop
