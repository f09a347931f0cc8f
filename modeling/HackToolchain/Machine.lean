/-!
# The Hack machine

The Hack computer executes words of 16 bits. A word whose first bit is 0 loads the address in its
other 15 bits; a word that begins with 111 computes. The first 16 words of data memory serve as
registers, variables follow, and the screen and the keyboard are mapped to fixed addresses.
-/

namespace HackToolchain.Machine

/-- The number of bits of a word. -/
def wordLength : Nat := 16

/-- The largest number that fits in a word. -/
def wordMax : Int := 65535

/-- The largest address that an instruction can load. -/
def addressMax : Int := 32767

/-- The first address of the screen. -/
def screen : Int := 16384

/-- The address of the keyboard. -/
def keyboard : Int := 24576

/-- The first address that is handed out to variables. -/
def variableBase : Int := 16

/-- The addresses that are never handed out to variables. -/
def reserved : List Int := [screen, keyboard]

/-- The symbols that every program may use, and their addresses. -/
def predefined : List (String × Int) :=
  [("SP", 0), ("LCL", 1), ("ARG", 2), ("THIS", 3), ("THAT", 4),
   ("R0", 0), ("R1", 1), ("R2", 2), ("R3", 3), ("R4", 4), ("R5", 5), ("R6", 6), ("R7", 7),
   ("R8", 8), ("R9", 9), ("R10", 10), ("R11", 11), ("R12", 12), ("R13", 13), ("R14", 14),
   ("R15", 15), ("SCREEN", screen), ("KBD", keyboard)]

end HackToolchain.Machine
