import Muxponder.KursHelper
import Muxponder.Lib.Machine
import Muxponder.Lib.NorFlash

/-!
# Safe Reprogramming

The remote update of `kurs_remote_update.c`: an image is received in blocks of 64 bytes
over `0x0F` requests, each answered with the address of the next block, and programmed
into the copy region of the external flash. `HEXLOAD` starts a session, `FINISH` writes
the checksum and has the processor boot again.

A call of `HandleKursSafeReprogramming` is one step of `updateMachine`: its input is the
request together with what the call reads from outside (the tick counter, and the memory
a pointer may lead to), its output the reply and the flash operations in their order. A
read behind the end of a buffer has no defined effect, so the handler is partial.
-/

namespace Muxponder

open CString Digits NorFlash

/-! ### The flash layout -/

def INITIAL_IMAGE_OFFSET_IN_FLASH : ℕ := 0x240000

def REMOTE_IMAGE_OFFSET_IN_FLASH : ℕ := 0x440000

def REMOTE_IMAGE_SIZE_IN_FLASH : ℕ :=
  REMOTE_IMAGE_OFFSET_IN_FLASH - INITIAL_IMAGE_OFFSET_IN_FLASH

def FLASH_PROG_START : ℕ := REMOTE_IMAGE_OFFSET_IN_FLASH

def FLASH_PROG_SIZE : ℕ := REMOTE_IMAGE_SIZE_IN_FLASH

def FLASH_COPY_START : ℕ := REMOTE_IMAGE_OFFSET_IN_FLASH

/-- The end of the copy region, `FLASH_COPY_START + FLASH_PROG_SIZE` in the source. -/
def FLASH_COPY_END : ℕ := FLASH_COPY_START + FLASH_PROG_SIZE

/-- `LANG_BLOCK_MAX_CNT*LANG_BLOCK_SIZE`. -/
def FLASH_LANG_SIZE : ℕ := 150 * 256

/-- The size of a data block. -/
def FWHEX_PACKET_SIZE : ℕ := 64

def CFI_SECTOR_SIZE : ℕ := 0x20000

/-- The page size of write buffer programming. -/
def LLD_BUFFER_SIZE : ℕ := 64

/-! ### The flash driver -/

/-- `lld_WriteBufferProgramOp`; undefined when it would read behind the data. -/
def lldWriteBufferProgramOp (offset word_cnt : ℕ) (data_buf : List UInt8) : Option Op :=
  if word_cnt ≤ data_buf.length then some (.program offset (data_buf.take word_cnt))
  else none

/-- The pages of `lld_memcpy`, from a page boundary on. -/
def lldMemcpyPages (offset word_cnt : ℕ) (data_buf : List UInt8) : Option (List Op) :=
  if LLD_BUFFER_SIZE ≤ word_cnt then
    (lldWriteBufferProgramOp offset LLD_BUFFER_SIZE data_buf).bind fun op =>
      (lldMemcpyPages (offset + LLD_BUFFER_SIZE) (word_cnt - LLD_BUFFER_SIZE)
        (data_buf.drop LLD_BUFFER_SIZE)).map (op :: ·)
  else if word_cnt = 0 then some []
  else (lldWriteBufferProgramOp offset word_cnt data_buf).map ([·])
termination_by word_cnt
decreasing_by simp only [LLD_BUFFER_SIZE] at *; omega

/-- `lld_memcpy`: up to the next page boundary first, then page by page. -/
def lldMemcpy (offset word_cnt : ℕ) (data_buf : List UInt8) : Option (List Op) :=
  if offset % LLD_BUFFER_SIZE = 0 then lldMemcpyPages offset word_cnt data_buf
  else
    let intwc := min word_cnt (LLD_BUFFER_SIZE - offset % LLD_BUFFER_SIZE)
    (lldWriteBufferProgramOp offset intwc data_buf).bind fun op =>
      if word_cnt - intwc = 0 then some [op]
      else (lldMemcpyPages (offset + intwc) (word_cnt - intwc) (data_buf.drop intwc)).map
        (op :: ·)

/-- `PrepareEraseProgCopy`: the sectors erased for a new image. -/
def prepareEraseProgCopy : List Op :=
  (List.range 10).map fun ind =>
    .eraseSector (REMOTE_IMAGE_OFFSET_IN_FLASH + CFI_SECTOR_SIZE * ind)

/-- `size` bytes read from an offset of the flash. -/
def readFlash (flash : Contents) (offset size : ℕ) : List UInt8 :=
  (List.range size).map fun i => flash (offset + i)

/-- The checksum over the image in the flash, `calc_crc16` on the copy region without its
last four bytes. -/
def imageCrc (flash : Contents) : UInt16 :=
  calcCrc16 (readFlash flash REMOTE_IMAGE_OFFSET_IN_FLASH (REMOTE_IMAGE_SIZE_IN_FLASH - 4))
    (REMOTE_IMAGE_SIZE_IN_FLASH - 4)

/-- What `WriteToProgCopy` leaves: its return value, the operations it had the device do,
and the address its local variable ends at. -/
structure WriteResult where
  byError : UInt8
  ops : List Op
  dwCopyAddr : UInt32

/-- The size `WriteToProgCopy` goes on with when a block reaches into the last four bytes;
the copy itself is made before and takes 64 bytes in any case. -/
def trimmedSize (dwCopyAddr dwWrBufSize : UInt32) : UInt32 :=
  if FLASH_COPY_END - 4 < (dwCopyAddr + dwWrBufSize).toNat then
    UInt32.ofNat FLASH_COPY_END - 4 - dwWrBufSize
  else dwWrBufSize

/-- `WriteToProgCopy`. The checksum of a finished image is passed to `lld_memcpy` where
the address of the data is expected, so `memory` supplies the bytes found there. -/
def writeToProgCopy (memory : ℕ → UInt8) (flash : Contents) (dwCopyAddr : UInt32)
    (pWrBuf : List UInt8) (dwWrBufSize : UInt32) (bFinishLoad _bTestIdent : Bool) :
    Option WriteResult :=
  let byError := decide (dwCopyAddr.toNat < FLASH_COPY_START ∨
    FLASH_COPY_END ≤ dwCopyAddr.toNat ∨ FLASH_COPY_END < (dwCopyAddr + dwWrBufSize).toNat)
  if byError then some ⟨1, [], dwCopyAddr⟩
  else
    (if dwWrBufSize = 0 then some ([], dwCopyAddr)
      else (lldMemcpy dwCopyAddr.toNat 64 pWrBuf).map fun ops =>
        (ops, dwCopyAddr + trimmedSize dwCopyAddr dwWrBufSize)).bind fun w =>
    if bFinishLoad then
      let dwCRC := imageCrc (run CFI_SECTOR_SIZE w.1 flash)
      (lldMemcpy (FLASH_COPY_END - 4) 4
        ((List.range 4).map fun i => memory (dwCRC.toNat + i))).map fun ops =>
          ⟨0, w.1 ++ ops, w.2⟩
    else some ⟨0, w.1, w.2⟩

/-! ### Answers -/

/-- `MakeAnswerHEXCRC`: address and command of the request, the text, its checksum and the
end-of-packet character. -/
def makeAnswerHEXCRC (header szAnswer : List UInt8) : List UInt8 :=
  let str := header ++ szAnswer
  str ++ wordToHexStr (getCrc16Ascii str str.length) ++ [0x0D]

/-- The text of the loader configuration. -/
def blCfg : List UInt8 :=
  ascii "FWCONFIG;HEXFWLOADER;FWSTARTADDR:" ++ writeHex 8 FLASH_PROG_START ++
    ascii ";FWRESSIZE:" ++ writeHex 8 FLASH_PROG_SIZE ++
    ascii ";LANGRESSIZE:" ++ writeHex 8 FLASH_LANG_SIZE ++ ascii ";"

/-- `MakeBLCfgAnswerHEXCRC`: the loader configuration. -/
def makeBLCfgAnswerHEXCRC (header : List UInt8) : List UInt8 := makeAnswerHEXCRC header blCfg

/-- `MakeAddrAnswerHEXCRC`: the address of the next block. -/
def makeAddrAnswerHEXCRC (header : List UInt8) (dwAddr : UInt32) : List UInt8 :=
  makeAnswerHEXCRC header (uintToHexStr dwAddr)

/-! ### The handler -/

/-- The static variables of the handler, the flash, and the flag that has the processor
boot again. -/
structure RemoteUpdate where
  dwCurFwAddr : UInt32
  dwCurCopyAddr : UInt32
  bVerifyIdent : Bool
  bFwUpdateStarted : Bool
  dwLastActionTime : UInt32
  dwLastTimeout : UInt32
  flash : Contents
  rebootNios : Bool

/-- What a call reads: the request, the tick counter when the handler first asks for it
and when it has taken up a block, and the processor's memory. -/
structure UpdateCall where
  str_rx : List UInt8
  nticks : UInt32
  nticksBlock : UInt32
  memory : ℕ → UInt8

/-- What a call leaves outside the handler: the reply, none when its length is zero, and
the flash operations. The last two fields record the data of a block the handler marks as
written, and a failed attempt to write one. -/
structure UpdateReply where
  reply : List UInt8
  ops : List Op := []
  accepted : Option (List UInt8) := none
  writeFailed : Bool := false

/-- The verdict on a request: its text with the checksum cut off, when that matches. -/
inductive RequestCheck
  | tooShort
  | crcMismatch
  | valid (str : List UInt8)
  deriving DecidableEq, Repr

/-- The length and checksum tests at the start of the handler. -/
def checkRequest (str_rx : List UInt8) : Option RequestCheck :=
  (strchr 0x0D str_rx).bind fun end_request =>
    let dwLen := end_request.getD 0
    if dwLen < 6 then some .tooShort
    else
      (str4HexToU16 (str_rx.drop (dwLen - 4))).map fun crc_read =>
        let str := str_rx.set (dwLen - 4) 0
        if crc_read = some (getCrc16Ascii str (dwLen - 4)) then .valid str else .crcMismatch

/-- The two bytes of the request every reply starts with. -/
def requestHeader : List UInt8 → Option (List UInt8)
  | addr :: cmd :: _ => some [addr, cmd]
  | _ => none

/-- The first `n` bytes written as pairs of hexadecimal digits, `Str2HexToU8` over and
over. -/
def hexBytes : ℕ → List UInt8 → Option (List UInt8)
  | 0, _ => some []
  | n + 1, str => (str2HexToU8 str).bind fun b => (hexBytes n (str.drop 2)).map (b :: ·)

/-- The data of a block request, when its address is the expected one and all of its
digits are hexadecimal. -/
def blockData (dwCurFwAddr : UInt32) (str : List UInt8) : Option (List UInt8) :=
  (str8HexToU32 (str.drop 2)).bind fun dwAddrRcv =>
    if dwAddrRcv = dwCurFwAddr then hexBytes FWHEX_PACKET_SIZE (str.drop (2 + 8)) else none

/-- `HEXLOAD`: start a session. -/
def hexload (tps : UInt32) (s : RemoteUpdate) (c : UpdateCall) (header : List UInt8) :
    RemoteUpdate × UpdateReply :=
  ({ s with
      bFwUpdateStarted := true, dwLastActionTime := c.nticks, dwLastTimeout := 30 * tps,
      dwCurFwAddr := UInt32.ofNat FLASH_PROG_START,
      dwCurCopyAddr := UInt32.ofNat FLASH_COPY_START,
      flash := run CFI_SECTOR_SIZE prepareEraseProgCopy s.flash },
    { reply := makeAddrAnswerHEXCRC header (UInt32.ofNat FLASH_PROG_START),
      ops := prepareEraseProgCopy })

/-- `FINISH`: end the session. -/
def finishLoad (s : RemoteUpdate) (c : UpdateCall) (header : List UInt8) :
    Option (RemoteUpdate × UpdateReply) :=
  (writeToProgCopy c.memory s.flash s.dwCurCopyAddr [] 0 true s.bVerifyIdent).map fun w =>
    let s := { s with
      bFwUpdateStarted := false, bVerifyIdent := true,
      flash := run CFI_SECTOR_SIZE w.ops s.flash }
    if w.byError = 1 then
      (s, { reply := makeAnswerHEXCRC header (ascii "EFINISH"), ops := w.ops })
    else if w.byError = 2 then
      (s, { reply := makeAnswerHEXCRC header (ascii "EFINISHSIGN"), ops := w.ops })
    else
      ({ s with rebootNios := true },
        { reply := makeAnswerHEXCRC header (ascii "COMPLETE"), ops := w.ops })

/-- Any other request of a session: a block, written when it is the expected one. -/
def loadBlock (tps : UInt32) (s : RemoteUpdate) (c : UpdateCall) (header str : List UInt8) :
    Option (RemoteUpdate × UpdateReply) :=
  let s := { s with dwLastActionTime := c.nticksBlock, dwLastTimeout := 3 * tps }
  match blockData s.dwCurFwAddr str with
  | none => some (s, { reply := makeAddrAnswerHEXCRC header s.dwCurFwAddr })
  | some byFwBuf =>
      (writeToProgCopy c.memory s.flash s.dwCurCopyAddr byFwBuf
        (UInt32.ofNat FWHEX_PACKET_SIZE) false false).map fun w =>
          let s := { s with flash := run CFI_SECTOR_SIZE w.ops s.flash }
          if w.byError ≠ 0 then
            ({ s with bFwUpdateStarted := false },
              { reply := makeAnswerHEXCRC header (ascii "EFINISH"), ops := w.ops,
                writeFailed := true })
          else
            let s := { s with
              dwCurFwAddr := s.dwCurFwAddr + UInt32.ofNat FWHEX_PACKET_SIZE,
              dwCurCopyAddr := s.dwCurCopyAddr + UInt32.ofNat FWHEX_PACKET_SIZE }
            (s, { reply := makeAddrAnswerHEXCRC header s.dwCurFwAddr, ops := w.ops,
                  accepted := some byFwBuf })

/-- The commands, in the order in which the handler tells them apart. -/
def handleCommand (tps : UInt32) (s : RemoteUpdate) (c : UpdateCall)
    (header str : List UInt8) : Option (RemoteUpdate × UpdateReply) :=
  if startsWith "FWCONFIG" (str.drop 2) then
    some (s, { reply := makeBLCfgAnswerHEXCRC header })
  else if startsWith "DISABLESIGNATURE" (str.drop 2) then
    some ({ s with bVerifyIdent := false },
      { reply := makeAnswerHEXCRC header (ascii "DISABLESIGNATURE;OK") })
  else if startsWith "SOFTRESET" (str.drop 2) then
    some (s, { reply := makeAnswerHEXCRC header (ascii "OK") })
  else if startsWith "HEXLOAD" (str.drop 2) then
    some (hexload tps s c header)
  else if s.dwLastTimeout < c.nticks - s.dwLastActionTime then
    some ({ s with bFwUpdateStarted := false },
      { reply := makeAnswerHEXCRC header (ascii "EFINISH") })
  else if s.bFwUpdateStarted && startsWith "FINISH" (str.drop 2) then
    finishLoad s c header
  else if s.bFwUpdateStarted then
    loadBlock tps s c header str
  else
    -- no branch above has set the length of the reply
    some (s, { reply := makeAnswerHEXCRC header (ascii "NA") })

/-- `HandleKursSafeReprogramming`. A request with a wrong checksum is answered outside a
session and dropped inside one. -/
def handleKursSafeReprogramming (tps : UInt32) (s : RemoteUpdate) (c : UpdateCall) :
    Option (RemoteUpdate × UpdateReply) :=
  (requestHeader c.str_rx).bind fun header =>
    (checkRequest c.str_rx).bind fun check =>
      match check with
      | .tooShort => some (s, { reply := makeAnswerHEXCRC header (ascii "NA") })
      | .crcMismatch =>
          some (s, { reply := if s.bFwUpdateStarted then []
            else makeAnswerHEXCRC header (ascii "NA") })
      | .valid str => handleCommand tps s c header str

/-- The handler over sequences of requests, at a fixed tick rate. -/
def updateMachine (tps : UInt32) : Machine RemoteUpdate UpdateCall UpdateReply :=
  ⟨handleKursSafeReprogramming tps⟩

/-- The static variables before the first call, over a flash with any contents. -/
def updateInit (flash : Contents) : RemoteUpdate where
  dwCurFwAddr := 0
  dwCurCopyAddr := 0
  bVerifyIdent := true
  bFwUpdateStarted := false
  dwLastActionTime := 0
  dwLastTimeout := 0
  flash := flash
  rebootNios := false

end Muxponder
