import Lox.Text.Table

/-!
How many non-starters a character begins and ends with once it is spelled out in full, ligatures
and narrow forms included. Only the characters are listed for which canonical decomposition does
not tell.
-/

namespace Lox.Text

/-- Characters that begin with non-starters when spelled out: `first-last=count`. -/
def expandedLeads : Array (Nat × Nat × Nat) := readClasses [
  "3133=1 3135-3136=1 313A-313F=1 314F-3163=1 FF9E-FF9F=1 FFA3=1 FFA5-FFA6=1 FFAA-FFAF=1",
  "FFC2-FFC7=1 FFCA-FFCF=1 FFD2-FFD7=1 FFDA-FFDC=1"]

/-- Characters that end with more non-starters when spelled out: `first-last=count`. -/
def expandedTrails : Array (Nat × Nat × Nat) := readClasses [
  "A8=1 AF=1 B4=1 B8=1 1C4-1C6=1 2D8-2DD=1 37A=1 384=1 385=2 F77=2 F79=2 1FBD=1 1FBF-1FC0=1 1FC1=2",
  "1FCD-1FCF=2 1FDD-1FDF=2 1FED-1FEE=2 1FFD-1FFE=1 2017=1 203E=1 309B-309C=1 3133=1 3135-3136=1",
  "313A-313F=1 314F-3163=1 326E-327E=1 3304=1 3307=1 3310=1 331E=1 3321=1 3332=1 333B=1 3340=1",
  "334B=1 334E=1 FBA4-FBA5=1 FBB0-FBB1=1 FC5B-FC5D=1 FC5E-FC63=2 FC90=1 FCD9=1 FCF2-FCF4=2",
  "FD3C-FD3D=1 FE49-FE4C=1 FE70-FE72=1 FE74=1 FE76-FE7F=1 FE81-FE8C=1 FEF5-FEFA=1 FF9E-FF9F=1",
  "FFA3=1 FFA5-FFA6=1 FFAA-FFAF=1 FFC2-FFC7=1 FFCA-FFCF=1 FFD2-FFD7=1 FFDA-FFDC=1 FFE3=1 1F213=1"]

end Lox.Text
