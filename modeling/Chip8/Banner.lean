/-!
# Banner

The name and version under which the interpreter introduces itself, and the
line it prints when a session starts.
-/

set_option autoImplicit false

namespace Chip8.Banner

def name : String := "Chip8Core Interpreter"

def version : String := "1.0.0"

def rights : String :=
  "Copyright (C) 2022 Gregory Maynard-Hoare, licensed under GNU Affero General Public License v3.0"

def introduction : String := name ++ " V" ++ version ++ " -- "

def sessionLine : String := introduction ++ rights

end Chip8.Banner
