/-!
# A generator of random numbers

Random landmarks must come out the same for the same seed, on any machine, so
the generator is fixed: ISAAC-64, which fills a memory of 256 words of 64 bits
and turns it over once for every 256 results.  The results of a turn are used
from the last to the first, and each gives two numbers of 32 bits, the lower
half before the upper one.
-/

namespace JourneyTimes.Random

/-- The eight registers that spread a seed over the memory. -/
structure Registers where
  a : UInt64
  b : UInt64
  c : UInt64
  d : UInt64
  e : UInt64
  f : UInt64
  g : UInt64
  h : UInt64

/-- The registers before anything of the seed is added to them. -/
def Registers.initial : Registers :=
  { a := 0x647c4677a2884b7c, b := 0xb9f8b322c73ac862
    c := 0x8c0ea5053d4712a0, d := 0xb29b2e824a595524
    e := 0x82f053db8355e0ce, f := 0x48fe4a0fa5a09315
    g := 0xae985bf2cbfc89ed, h := 0x98f5704f6c44c0ab }

/-- Mix the registers with one another. -/
def Registers.mix (registers : Registers) : Registers :=
  let ⟨a, b, c, d, e, f, g, h⟩ := registers
  let a := a - e
  let f := f ^^^ (h >>> 9)
  let h := h + a
  let b := b - f
  let g := g ^^^ (a <<< 9)
  let a := a + b
  let c := c - g
  let h := h ^^^ (b >>> 23)
  let b := b + c
  let d := d - h
  let a := a ^^^ (c <<< 15)
  let c := c + d
  let e := e - a
  let b := b ^^^ (d >>> 14)
  let d := d + e
  let f := f - b
  let c := c ^^^ (e <<< 20)
  let e := e + f
  let g := g - c
  let d := d ^^^ (f >>> 17)
  let f := f + g
  let h := h - d
  let e := e ^^^ (g <<< 14)
  let g := g + h
  ⟨a, b, c, d, e, f, g, h⟩

/-- Add eight words of the memory, from a position on, to the registers. -/
def Registers.absorb (registers : Registers) (memory : Array UInt64)
    (start : Nat) : Registers :=
  let word (offset : Nat) : UInt64 := memory.getD (start + offset) 0
  { a := registers.a + word 0, b := registers.b + word 1
    c := registers.c + word 2, d := registers.d + word 3
    e := registers.e + word 4, f := registers.f + word 5
    g := registers.g + word 6, h := registers.h + word 7 }

/-- The registers in order. -/
def Registers.toList (registers : Registers) : List UInt64 :=
  [registers.a, registers.b, registers.c, registers.d,
    registers.e, registers.f, registers.g, registers.h]

/-- The number of words of the memory. -/
def memorySize : Nat := 256

/-- The state of the generator: its memory, three words carried from turn to
turn, and the numbers of the last turn that have not been used. -/
structure Generator where
  memory : Array UInt64
  a : UInt64
  b : UInt64
  c : UInt64
  pending : List UInt32

/-- The memory filled from a seed, block after block of eight words. -/
def seededMemory (seed : UInt64) : Array UInt64 :=
  let blank := (Array.replicate memorySize (0 : UInt64)).setIfInBounds 0 seed
  let filled := (List.range (memorySize / 8)).foldl
    (fun (registers, memory) block =>
      let registers := (Registers.absorb registers memory (8 * block)).mix
      let memory := registers.toList.zipIdx.foldl
        (fun memory (word, offset) =>
          memory.setIfInBounds (8 * block + offset) word)
        memory
      (registers, memory))
    (Registers.initial, blank)
  filled.2

/-- The generator of a seed. -/
def Generator.ofSeed (seed : UInt64) : Generator :=
  { memory := seededMemory seed, a := 0, b := 0, c := 0, pending := [] }

/-- How the first carried word changes at a position of the memory. -/
def scramble (a : UInt64) (position : Nat) : UInt64 :=
  match position % 4 with
  | 0 => ~~~(a ^^^ (a <<< 21))
  | 1 => a ^^^ (a >>> 5)
  | 2 => a ^^^ (a <<< 12)
  | _ => a ^^^ (a >>> 33)

/-- What changes while a turn goes over the memory. -/
structure Turning where
  memory : Array UInt64
  a : UInt64
  b : UInt64
  /-- The results so far, the latest first. -/
  results : List UInt64

/-- Turn one word of the memory over. -/
def Turning.step (state : Turning) (position : Nat) : Turning :=
  let x := state.memory.getD position 0
  let a := scramble state.a position +
    state.memory.getD ((position + memorySize / 2) % memorySize) 0
  let y := a + state.b +
    state.memory.getD ((x >>> 3).toNat % memorySize) 0
  let memory := state.memory.setIfInBounds position y
  let b := x + memory.getD ((y >>> 11).toNat % memorySize) 0
  { memory, a, b, results := b :: state.results }

/-- The two halves of a word, the lower one first. -/
def halves (word : UInt64) : List UInt32 :=
  [word.toUInt32, (word >>> 32).toUInt32]

/-- Turn the whole memory over. -/
def Generator.turn (generator : Generator) : Generator :=
  let c := generator.c + 1
  let final := (List.range memorySize).foldl Turning.step
    { memory := generator.memory
      a := generator.a
      b := generator.b + c
      results := [] }
  { memory := final.memory
    a := final.a
    b := final.b
    c
    pending := final.results.flatMap halves }

/-- The next number of 32 bits. -/
def Generator.next (generator : Generator) : UInt32 × Generator :=
  match generator.pending with
  | number :: pending => (number, { generator with pending })
  | [] =>
    let turned := generator.turn
    match turned.pending with
    | number :: pending => (number, { turned with pending })
    | [] => (0, turned)

end JourneyTimes.Random
