import Chip8.Machine

/-!
# Executing an instruction

The effect of each instruction on a machine whose counter has already moved
on. An instruction that fails has no effect, and only four kinds can fail: a
call beyond the depth limit, a return without a call, and, when a host has set
them out of range, a read of the delay timer and a store of digits.

An operation that yields both a result and a flag reads its registers first
and writes the flag last, so the flag wins where both go to one register.
-/

set_option autoImplicit false

namespace Chip8.Machine

def register (machine : Machine) (x : Register) : UInt8 := machine.processor.registers.get x

def setRegister (machine : Machine) (x : Register) (value : UInt8) : Machine :=
  { machine with processor.registers := machine.processor.registers.set x value }

def setFlag (machine : Machine) (flag : Bool) : Machine :=
  machine.setRegister flagRegister (if flag then 1 else 0)

def setIndex (machine : Machine) (index : Int) : Machine :=
  { machine with processor.index := index }

def jumpTo (machine : Machine) (target : Int) : Machine :=
  { machine with processor.counter := target }

def skipIf (machine : Machine) (condition : Bool) : Machine :=
  if condition then machine.advance else machine

def callTo (machine : Machine) (target : Address) : Except Fault Machine :=
  (machine.stack.push machine.processor.counter).map fun stack =>
    { machine with stack := stack }.jumpTo target

def returnBack (machine : Machine) : Except Fault Machine :=
  machine.stack.pop.map fun (address, stack) => { machine with stack := stack }.jumpTo address

/-- Store the result of a bitwise operation. In a dialect with the trait the
flag register is cleared, also when it holds the result. -/
def setBitwise (machine : Machine) (x : Register) (value : UInt8) : Machine :=
  let stored := machine.setRegister x value
  if machine.dialect.logic then stored.setFlag false else stored

def shifted (machine : Machine) (x y : Register) : UInt8 :=
  machine.register (if machine.dialect.shift then x else y)

def offset (machine : Machine) (target : Address) : UInt8 :=
  machine.register
    (if machine.dialect.jump then Instruction.offsetRegister target else firstRegister)

/-- Store the difference of two values; the flag says that nothing had to be
borrowed. -/
def setDifference (machine : Machine) (x : Register) (value less : UInt8) : Machine :=
  (machine.setRegister x (value - less)).setFlag (less ≤ value)

def indexed (machine : Machine) (places : Nat) : Int :=
  wrapAddress (machine.processor.index + places)

def sprite (machine : Machine) (rows : Nat) : Except Fault (List UInt8) :=
  (List.range rows).mapM fun row => machine.memory.read (machine.indexed row)

/-- The positions of the set pixels of a row: its highest bit is its first. -/
def rowCells (x y : Int) (byte : UInt8) : List (Int × Int) :=
  ((List.range 8).filter fun column => byte.toNat.testBit (7 - column)).map
    fun (column : Nat) => (x + column, y)

def spriteCells (x y : Int) (bytes : List UInt8) : List (Int × Int) :=
  bytes.zipIdx.flatMap fun (byte, row) => rowCells x (y + row) byte

/-- Turn the pixels of a sprite over; the flag says whether one of them was
set before. -/
def drawSprite (machine : Machine) (x y : Register) (rows : Nat) :
    Except Fault (Machine × List Signal) := do
  let bytes ← machine.sprite rows
  let cells := spriteCells (machine.register x).toNat (machine.register y).toNat bytes
  let drawn := machine.screen.toggleAll cells
  let hit ← drawn.answer
  return ({ machine with screen := drawn.state }.setFlag hit, drawn.signals)

/-- Store the lowest key that is down. While there is none the counter moves
back, so the instruction is met again. -/
def answerKey (machine : Machine) (x : Register) : Machine :=
  match machine.keypad.first? with
  | none => { machine with processor.awaitingKey := true }.retreat
  | some key =>
      { machine.setRegister x (UInt8.ofNat key) with processor.awaitingKey := false }

def storeDelay (machine : Machine) (x : Register) : Except Fault Machine :=
  let delay := machine.processor.delay
  if 0 ≤ delay ∧ delay ≤ 255 then .ok (machine.setRegister x (UInt8.ofNat delay.toNat))
  else .error (.notAByte delay)

/-- Start or stop the sound timer. It beeps when it starts, and the buzzer
follows it. -/
def startSound (machine : Machine) (ticks : UInt8) : Machine × List Signal :=
  ({ machine with processor.sound := ticks.toNat },
    (if 0 < ticks ∧ machine.processor.sound = 0 then [.beepFor ticks] else []) ++
      [.buzzer (0 < ticks)])

def storeRandom (machine : Machine) (x : Register) (mask : UInt8) : Machine :=
  let (byte, random) := machine.random.draw
  { machine with random := random }.setRegister x (byte &&& mask)

/-- Store the decimal digits of a value, highest first, from the index on. The
first address is the index as it is. -/
def storeDigits (machine : Machine) (value : Nat) : Except Fault Machine := do
  let hundreds ← machine.memory.write machine.processor.index (value / 100 : Nat)
  let tens ← hundreds.write (machine.indexed 1) (value / 10 % 10 : Nat)
  let ones ← tens.write (machine.indexed 2) (value % 10 : Nat)
  return { machine with memory := ones }

def registersTo (x : Register) : List Register := (List.finRange 16).take (x + 1)

/-- Behind a block transfer the index moves on in a dialect with the trait. -/
def passBlock (machine : Machine) (x : Register) : Machine :=
  if machine.dialect.load then machine.setIndex (machine.indexed (x + 1)) else machine

def storeRegisters (machine : Machine) (x : Register) : Except Fault Machine := do
  let memory ← (registersTo x).foldlM
    (fun memory y => memory.write (machine.indexed y) (machine.register y).toNat) machine.memory
  return { machine with memory := memory }.passBlock x

def loadRegisters (machine : Machine) (x : Register) : Except Fault Machine := do
  let loaded ← (registersTo x).foldlM
    (fun (loaded : Machine) (y : Register) =>
      (machine.memory.read (machine.indexed y)).map (loaded.setRegister y))
    machine
  return loaded.passBlock x

def glyphAddress (digit : Nat) : Int := wrapAddress (fontStart + glyphSize * digit)

def namedKey (machine : Machine) (x : Register) : Key :=
  Instruction.lastDigit (machine.register x).toNat

def silent (result : Except Fault Machine) : Except Fault (Machine × List Signal) :=
  result.map fun machine => (machine, [])

def execute (machine : Machine) : Instruction → Except Fault (Machine × List Signal)
  | .clearScreen => do
      let cleared := machine.screen.clear
      cleared.answer
      return ({ machine with screen := cleared.state }, cleared.signals)
  | .ret => silent machine.returnBack
  | .jump target => silent (.ok (machine.jumpTo target))
  | .call target => silent (machine.callTo target)
  | .skipIfByte x byte => silent (.ok (machine.skipIf (machine.register x == byte)))
  | .skipUnlessByte x byte => silent (.ok (machine.skipIf (machine.register x != byte)))
  | .skipIfSame x y =>
      silent (.ok (machine.skipIf (machine.register x == machine.register y)))
  | .loadByte x byte => silent (.ok (machine.setRegister x byte))
  | .addByte x byte => silent (.ok (machine.setRegister x (machine.register x + byte)))
  | .copy x y => silent (.ok (machine.setRegister x (machine.register y)))
  | .bitOr x y => silent (.ok (machine.setBitwise x (machine.register x ||| machine.register y)))
  | .bitAnd x y => silent (.ok (machine.setBitwise x (machine.register x &&& machine.register y)))
  | .bitXor x y => silent (.ok (machine.setBitwise x (machine.register x ^^^ machine.register y)))
  | .add x y =>
      let a := machine.register x
      let b := machine.register y
      silent (.ok ((machine.setRegister x (a + b)).setFlag (255 < a.toNat + b.toNat)))
  | .subtract x y =>
      silent (.ok (machine.setDifference x (machine.register x) (machine.register y)))
  | .shiftRight x y =>
      let value := machine.shifted x y
      silent (.ok ((machine.setRegister x (value >>> 1)).setFlag (value &&& 1 != 0)))
  | .subtractFrom x y =>
      silent (.ok (machine.setDifference x (machine.register y) (machine.register x)))
  | .shiftLeft x y =>
      let value := machine.shifted x y
      silent (.ok ((machine.setRegister x (value <<< 1)).setFlag (value &&& 128 != 0)))
  | .skipUnlessSame x y =>
      silent (.ok (machine.skipIf (machine.register x != machine.register y)))
  | .loadIndex address => silent (.ok (machine.setIndex address))
  | .jumpOffset target =>
      silent (.ok (machine.jumpTo (wrapAddress ((machine.offset target).toNat + target.val))))
  | .random x mask => silent (.ok (machine.storeRandom x mask))
  | .draw x y rows => machine.drawSprite x y rows
  | .skipIfDown x => silent (.ok (machine.skipIf (machine.keypad.isDown (machine.namedKey x))))
  | .skipIfUp x => silent (.ok (machine.skipIf (!machine.keypad.isDown (machine.namedKey x))))
  | .readDelay x => silent (machine.storeDelay x)
  | .awaitKey x => silent (.ok (machine.answerKey x))
  | .setDelay x =>
      silent (.ok { machine with processor.delay := (machine.register x).toNat })
  | .setSound x => .ok (machine.startSound (machine.register x))
  | .addIndex x =>
      silent (.ok (machine.setIndex (machine.indexed (machine.register x).toNat)))
  | .pointGlyph x =>
      silent (.ok (machine.setIndex (glyphAddress ((machine.register x).toNat % 16))))
  | .storeDecimal x => silent (machine.storeDigits (machine.register x).toNat)
  | .storeBlock x => silent (machine.storeRegisters x)
  | .loadBlock x => silent (machine.loadRegisters x)

end Chip8.Machine
