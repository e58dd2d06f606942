import YoctoLayers.Lib.Field

/-! The registers and objects of `mcp251xfd.h` as far as the driver uses them: addresses, bits,
fields. -/
namespace YoctoLayers.Mcp251xfd
open YoctoLayers.Lib

def regCon : UInt16 := 0x00
def conReqop : Field := { hi := 26, lo := 24 }
def conOpmod : Field := { hi := 23, lo := 21 }
def conStef : UInt32 := bit 19
def conEsigm : UInt32 := bit 17
def conRtxat : UInt32 := bit 16
def conWft : Field := { hi := 10, lo := 9 }
def conWftT11filter : UInt32 := 3
def conWakfil : UInt32 := bit 8
def conPxedis : UInt32 := bit 6
def conIsocrcen : UInt32 := bit 5

def modeMixed : UInt8 := 0
def modeSleep : UInt8 := 1
def modeIntLoopback : UInt8 := 2
def modeListenonly : UInt8 := 3
def modeConfig : UInt8 := 4
def modeCan20 : UInt8 := 6
def modeRestricted : UInt8 := 7

def regNbtcfg : UInt16 := 0x04
def nbtcfgBrp : Field := { hi := 31, lo := 24 }
def nbtcfgTseg1 : Field := { hi := 23, lo := 16 }
def nbtcfgTseg2 : Field := { hi := 14, lo := 8 }
def nbtcfgSjw : Field := { hi := 6, lo := 0 }

def regDbtcfg : UInt16 := 0x08
def dbtcfgBrp : Field := { hi := 31, lo := 24 }
def dbtcfgTseg1 : Field := { hi := 20, lo := 16 }
def dbtcfgTseg2 : Field := { hi := 11, lo := 8 }
def dbtcfgSjw : Field := { hi := 3, lo := 0 }

def regTdc : UInt16 := 0x0c
def tdcTdcmod : Field := { hi := 17, lo := 16 }
def tdcTdcmodAuto : UInt32 := 2
def tdcTdco : Field := { hi := 14, lo := 8 }

def regTbc : UInt16 := 0x10
def regTscon : UInt16 := 0x14
def tsconTbcen : UInt32 := bit 16

def regInt : UInt16 := 0x1c
def intIf : Field := { hi := 15, lo := 0 }
def intIe : Field := { hi := 31, lo := 16 }
def intIvmie : UInt32 := bit 31
def intCerrie : UInt32 := bit 29
def intSerrie : UInt32 := bit 28
def intRxovie : UInt32 := bit 27
def intTxatie : UInt32 := bit 26
def intSpicrcie : UInt32 := bit 25
def intEccie : UInt32 := bit 24
def intTefie : UInt32 := bit 20
def intModie : UInt32 := bit 19
def intRxie : UInt32 := bit 17
def intIvmif : UInt32 := bit 15
def intWakif : UInt32 := bit 14
def intCerrif : UInt32 := bit 13
def intSerrif : UInt32 := bit 12
def intRxovif : UInt32 := bit 11
def intTxatif : UInt32 := bit 10
def intSpicrcif : UInt32 := bit 9
def intEccif : UInt32 := bit 8
def intTefif : UInt32 := bit 4
def intModif : UInt32 := bit 3
def intRxif : UInt32 := bit 1

/-- `MCP251XFD_REG_INT_IF_CLEARABLE_MASK`. -/
def intIfClearable : UInt32 := intIvmif ||| intWakif ||| intCerrif ||| intSerrif ||| intModif

def regRxovif : UInt16 := 0x28

def regTrec : UInt16 := 0x34
def trecTxbo : UInt32 := bit 21
def trecTxbp : UInt32 := bit 20
def trecRxbp : UInt32 := bit 19
def trecTxwarn : UInt32 := bit 18
def trecRxwarn : UInt32 := bit 17
def trecTec : Field := { hi := 15, lo := 8 }
def trecRec : Field := { hi := 7, lo := 0 }

def regBdiag1 : UInt16 := 0x3c
def bdiag1Dcrcerr : UInt32 := bit 29
def bdiag1Dstuferr : UInt32 := bit 28
def bdiag1Dformerr : UInt32 := bit 27
def bdiag1Dbit1err : UInt32 := bit 25
def bdiag1Dbit0err : UInt32 := bit 24
def bdiag1Ncrcerr : UInt32 := bit 21
def bdiag1Nstuferr : UInt32 := bit 20
def bdiag1Nformerr : UInt32 := bit 19
def bdiag1Nackerr : UInt32 := bit 18
def bdiag1Nbit1err : UInt32 := bit 17
def bdiag1Nbit0err : UInt32 := bit 16

def regTefcon : UInt16 := 0x40
def tefconFsize : Field := { hi := 28, lo := 24 }
def tefconUinc : UInt32 := bit 8
def tefconTeftsen : UInt32 := bit 5
def tefconTefovie : UInt32 := bit 3
def tefconTefneie : UInt32 := bit 0

def regTefsta : UInt16 := 0x44
def tefstaTefovif : UInt32 := bit 3

def regTefua : UInt16 := 0x48

/-- `MCP251XFD_REG_FIFOCON(x)`. -/
def regFifocon (x : UInt8) : UInt16 := 0x50 + 0xc * x.toUInt16
def fifoconPlsize : Field := { hi := 31, lo := 29 }
def fifoconPlsize8 : UInt32 := 0
def fifoconPlsize64 : UInt32 := 7
def fifoconFsize : Field := { hi := 28, lo := 24 }
def fifoconTxat : Field := { hi := 22, lo := 21 }
def fifoconTxatOneShot : UInt32 := 0
def fifoconTxatUnlimited : UInt32 := 3
def fifoconUinc : UInt32 := bit 8
def fifoconTxen : UInt32 := bit 7
def fifoconRxtsen : UInt32 := bit 5
def fifoconTxatie : UInt32 := bit 4
def fifoconRxovie : UInt32 := bit 3
def fifoconTfnrfnie : UInt32 := bit 0

def regFifosta (x : UInt8) : UInt16 := 0x54 + 0xc * x.toUInt16
def fifostaFifoci : Field := { hi := 12, lo := 8 }
def fifostaRxovif : UInt32 := bit 3

def regFifoua (x : UInt8) : UInt16 := 0x58 + 0xc * x.toUInt16

/-- `MCP251XFD_REG_FLTCON(x)`, the filter control of filters `4 * x` to `4 * x + 3`. -/
def regFltcon (x : UInt8) : UInt16 := 0x1d0 + 0x4 * x.toUInt16

def fltconShift (x : UInt8) : UInt32 := 8 * (x &&& 0x3).toUInt32
def fltconFlten (x : UInt8) : UInt32 := bit 7 <<< fltconShift x
def fltconFltMask (x : UInt8) : UInt32 := 0xff <<< fltconShift x
def fltconFbp (x fifo : UInt8) : UInt32 := fifo.toUInt32 <<< fltconShift x

def regOsc : UInt16 := 0xe00
def oscOscrdy : UInt32 := bit 10
def oscPllrdy : UInt32 := bit 8
def oscClkodiv : Field := { hi := 6, lo := 5 }
def oscClkodiv10 : UInt32 := 3
def oscLpmen : UInt32 := bit 3

def regIocon : UInt16 := 0xe04
def ioconPm1 : UInt32 := bit 25
def ioconPm0 : UInt32 := bit 24
def ioconTris1 : UInt32 := bit 1
def ioconTris0 : UInt32 := bit 0

def regCrc : UInt16 := 0xe08
def crcFerrie : UInt32 := bit 25
def crcCrcerrie : UInt32 := bit 24
def crcIf : Field := { hi := 17, lo := 16 }

def regEcccon : UInt16 := 0xe0c
def eccconDedie : UInt32 := bit 2
def eccconSecie : UInt32 := bit 1
def eccconEccen : UInt32 := bit 0

def regEccstat : UInt16 := 0xe10
def eccstatErraddr : Field := { hi := 27, lo := 16 }
def eccstatIf : Field := { hi := 2, lo := 1 }
def eccstatDedif : UInt32 := bit 2
def eccstatSecif : UInt32 := bit 1

def regDevid : UInt16 := 0xe14

/-- `MCP251XFD_REG_CON_*`. -/
def conBits : UInt32 :=
  Field.mask { hi := 31, lo := 28 } ||| bit 27 ||| conReqop.mask ||| conOpmod.mask ||| bit 20 |||
    conStef ||| bit 18 ||| conEsigm ||| conRtxat ||| bit 12 ||| bit 11 ||| conWft.mask |||
    conWakfil ||| conPxedis ||| conIsocrcen ||| Field.mask { hi := 4, lo := 0 }

def intBits : UInt32 := intIf.mask ||| intIe.mask

/-- `MCP251XFD_REG_FIFOSTA_*`. -/
def fifostaBits : UInt32 := fifostaFifoci.mask ||| Field.mask { hi := 7, lo := 0 }

/-- `MCP251XFD_REG_FLTCON_*`: an enable bit and five bits of FIFO for each of four filters. -/
def fltconBits : UInt32 :=
  bit 31 ||| Field.mask { hi := 28, lo := 24 } ||| bit 23 ||| Field.mask { hi := 20, lo := 16 } |||
    bit 15 ||| Field.mask { hi := 12, lo := 8 } ||| bit 7 ||| Field.mask { hi := 4, lo := 0 }

/-- `MCP251XFD_REG_OSC_*`. -/
def oscBits : UInt32 :=
  bit 12 ||| oscOscrdy ||| oscPllrdy ||| oscClkodiv.mask ||| bit 4 ||| oscLpmen ||| bit 2 ||| bit 0

def crcBits : UInt32 :=
  crcFerrie ||| crcCrcerrie ||| crcIf.mask ||| Field.mask { hi := 15, lo := 0 }

def eccconBits : UInt32 :=
  Field.mask { hi := 14, lo := 8 } ||| eccconDedie ||| eccconSecie ||| eccconEccen

def eccstatBits : UInt32 := eccstatErraddr.mask ||| eccstatIf.mask

def objIdEid : Field := { hi := 28, lo := 11 }
def objIdSid : Field := { hi := 10, lo := 0 }
def objFlagsSeqMcp2518fd : Field := { hi := 31, lo := 9 }
def objFlagsSeqMcp2517fd : Field := { hi := 15, lo := 9 }
def objFlagsEsi : UInt32 := bit 8
def objFlagsFdf : UInt32 := bit 7
def objFlagsBrs : UInt32 := bit 6
def objFlagsRtr : UInt32 := bit 5
def objFlagsIde : UInt32 := bit 4
def objFlagsDlc : Field := { hi := 3, lo := 0 }
def frameEffSid : Field := { hi := 28, lo := 18 }
def frameEffEid : Field := { hi := 17, lo := 0 }

def txFifo : UInt8 := 1

/-- `MCP251XFD_RX_FIFO(x)`. -/
def rxFifo (x : UInt8) : UInt8 := txFifo + 1 + x

def sysclockHzMax : UInt32 := 40000000
def sysclockHzMin : UInt32 := 1000000
def oscPllMultiplier : UInt32 := 10

def quirkMabNoWarn : UInt32 := bit 0
def quirkCrcReg : UInt32 := bit 1
def quirkCrcRx : UInt32 := bit 2
def quirkCrcTx : UInt32 := bit 3
def quirkEcc : UInt32 := bit 4
def quirkHalfDuplex : UInt32 := bit 5

/-- `mcp251xfd_first_byte_set`. -/
def firstByteSet (mask : UInt32) : ℕ :=
  if mask &&& 0x0000ffff ≠ 0 then (if mask &&& 0x000000ff ≠ 0 then 0 else 1)
  else if mask &&& 0x00ff0000 ≠ 0 then 2 else 3

/-- `mcp251xfd_last_byte_set`. -/
def lastByteSet (mask : UInt32) : ℕ :=
  if mask &&& 0xffff0000 ≠ 0 then (if mask &&& 0xff000000 ≠ 0 then 3 else 2)
  else if mask &&& 0x0000ff00 ≠ 0 then 1 else 0

/-- Which registers `mcp251xfd_regmap_nocrc_update_bits` reads before it writes. -/
def updateBitsReadReg (reg : UInt16) : Bool :=
  reg ∉ [regInt, regTefcon, regFifocon (rxFifo 0), regFltcon 0, regEccstat, regCrc]

end YoctoLayers.Mcp251xfd
