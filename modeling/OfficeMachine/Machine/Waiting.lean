import OfficeMachine.Inbox.Channel
import OfficeMachine.Machine

namespace OfficeMachine.Machine

def channel (m : Machine Channel) : Channel := m.office.trays.inbox

def onChannel (m : Machine Channel) (c : Channel) : Machine Channel :=
  { m with office := { m.office with trays := { m.office.trays with inbox := c } } }

def waits (m : Machine Channel) : Bool :=
  !m.halted && decide (m.worker.executed < m.config.budget) && m.next? == some .inbox &&
    m.channel.waits

def step? (m : Machine Channel) : Option (Except Failure (Machine Channel)) :=
  if m.waits then none else some m.step

def close (m : Machine Channel) : Machine Channel := m.onChannel m.channel.close

end OfficeMachine.Machine
