/-
This file reads the line with which a runner reports the address of its guest.
Blanks count for nothing around the line and after the marker; whatever else
stands on the line makes it an ordinary line of output.
-/

import VmFleet.Address.Ip
import VmFleet.Text.Blank

namespace VmFleet

open VmFleet.Text

namespace Report

/-- The marker that opens a report. -/
def marker : String := "public-ip:"

/-- The canonical text of the address that a line reports. -/
def address? (line : String) : Option String := do
  let rest ← afterOpening? marker.toList (trim line.toList)
  let address ← Ip.parse? (trim rest)
  some address.render

end Report

end VmFleet
