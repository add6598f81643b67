import Mathlib.Data.UInt

/-!
# Frame — the five-byte frames of the MCU link

The constants of `app_uart.h` and `app_uart.c` and the frame both sides
exchange: two header bytes, a command, a data byte and the sum of the
four modulo 256. Frames to the MCU start with `aa 55`, frames from it
with `55 aa`.
-/

namespace LiveWireSwitch

/-! ## Command codes (`app_uart.h`) -/

def onOffCmd : UInt8 := 0x00
def briNowCmd : UInt8 := 0x01
def briMaxCmd : UInt8 := 0x02
def briMinCmd : UInt8 := 0x03
def wifiResetCmd : UInt8 := 0x05
def wifiInitEndCmd : UInt8 := 0x06
def wifiInitStartCmd : UInt8 := 0x07
def uartSendAllow : UInt8 := 0xcc
def uartAcceptEnd : UInt8 := 0xdd
def errorCmd : UInt8 := 0xff

/-! ## Frame layout (`app_uart.c`) -/

def sendHead1 : UInt8 := 0xaa
def sendHead2 : UInt8 := 0x55
def receivedHead1 : UInt8 := 0x55
def receivedHead2 : UInt8 := 0xaa

/-- A command with its data byte: the arguments of `send_bri_ctrl_info`
and what a received frame carries. -/
structure Cmd where
  cmd : UInt8
  dat : UInt8
deriving DecidableEq, Repr

/-- A `uint8_t[LENGTH]` buffer, `LENGTH` being 5. -/
structure Frame where
  head1 : UInt8
  head2 : UInt8
  cmd : UInt8
  dat : UInt8
  sum : UInt8
deriving DecidableEq, Repr

/-- `b[0] + b[1] + b[2] + b[3]`, stored back to a `uint8_t`. -/
def Frame.checksum (b : Frame) : UInt8 := b.head1 + b.head2 + b.cmd + b.dat

/-- `b[2] = cmd; b[3] = dat; b[4] = b[0] + b[1] + b[2] + b[3];` -/
def Frame.fill (b : Frame) (c : Cmd) : Frame :=
  let b := { b with cmd := c.cmd, dat := c.dat }
  { b with sum := b.checksum }

/-- The initialiser `{ SendHead1, SendHead2, 0, 0, 0 }`. -/
def Frame.blank : Frame := ⟨sendHead1, sendHead2, 0, 0, 0⟩

/-- The frame that carries a command to the MCU. -/
def sendFrame (c : Cmd) : Frame := Frame.blank.fill c

/-- The acknowledgement `uart_deal_with` writes for a received `cmd`: its
`SendBuff` starts as `{ SendHead1, SendHead2, UART_ACCEPT_END, 0, 0 }`. -/
def ackFrame (cmd : UInt8) : Frame := Frame.blank.fill ⟨uartAcceptEnd, cmd⟩

/-- Only the header of the buffer survives a refill. -/
theorem Frame.fill_eq_sendFrame {b : Frame} (h₁ : b.head1 = sendHead1)
    (h₂ : b.head2 = sendHead2) (c : Cmd) : b.fill c = sendFrame c := by
  simp [Frame.fill, sendFrame, Frame.blank, Frame.checksum, h₁, h₂]

/-- Two commands with one frame are one command. -/
theorem sendFrame_inj {c d : Cmd} (h : sendFrame c = sendFrame d) : c = d := by
  cases c
  cases d
  simp only [sendFrame, Frame.fill, Frame.mk.injEq] at h
  simp [h.2.2.1, h.2.2.2.1]

end LiveWireSwitch
