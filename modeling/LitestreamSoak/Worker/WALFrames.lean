import LitestreamSoak.Lib.PrefixScan

/-!
# Worker — walking the frames of a WAL file

`internal/worker/wal_frames.go`: which frames of a WAL file belong to its current generation. A WAL
keeps its size when it is reset, so behind the frames of the current generation there may be stale
ones; a frame of the current one carries the salts of the header, and a checksum that runs on from
the header over every frame before it.

The file is its bytes, so every read of a whole frame succeeds. The loop of the source is
`walkFrames`; it is a `passed` loop over the frame slots, which is where the theorem comes from.
-/

namespace LitestreamSoak.Worker.WALFrames

open Lib List

/-! ## §1 — words and checksums -/

def walHeaderSize : Nat := 32
def walFrameHeaderSize : Nat := 24
def walMagicBigEndian : UInt32 := 0x377f0683
structure WALHeader where
  magic : UInt32 := 0
  version : UInt32 := 0
  pageSize : UInt32 := 0
  checkpointSeq : UInt32 := 0
  salt1 : UInt32 := 0
  salt2 : UInt32 := 0
  valid : Bool := false
deriving DecidableEq

def WALHeader.bigEndian (h : WALHeader) : Bool := h.magic = walMagicBigEndian

def frameSize (h : WALHeader) : Nat := h.pageSize.toNat + walFrameHeaderSize

def frameSlots (h : WALHeader) (file : List UInt8) : Nat :=
  (file.length - walHeaderSize) / frameSize h

def frameAt (h : WALHeader) (file : List UInt8) (i : Nat) : List UInt8 :=
  (file.drop (walHeaderSize + i * frameSize h)).take (frameSize h)

def frames (h : WALHeader) (file : List UInt8) : List (List UInt8) :=
  (range (frameSlots h file)).map (frameAt h file)

section File

variable {file : List UInt8} {i : Nat} {h : WALHeader} {file' : List UInt8}

end File

end LitestreamSoak.Worker.WALFrames
