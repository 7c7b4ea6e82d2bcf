import NextLevelRTOS.Process.IdleTask
import NextLevelRTOS.Process.Identifiers
import NextLevelRTOS.Process.Lifetime
import NextLevelRTOS.Process.Placement
import NextLevelRTOS.Process.Sleep
import NextLevelRTOS.Process.Failure
import NextLevelRTOS.Process.Requests
import NextLevelRTOS.Process.Fairness
import NextLevelRTOS.Process.Sweep
import NextLevelRTOS.Process.Killing
import NextLevelRTOS.Process.Commands
import NextLevelRTOS.Process.Images
import NextLevelRTOS.Process.Transfer
import NextLevelRTOS.Process.Statistic
import NextLevelRTOS.Process.Subtasks
import NextLevelRTOS.Process.Uart
import NextLevelRTOS.Data.Lists
import NextLevelRTOS.Memory.Locking
import NextLevelRTOS.Memory.Mutex
import NextLevelRTOS.Memory.Accesses
import NextLevelRTOS.Memory.Order
import NextLevelRTOS.Memory.Statistic
import NextLevelRTOS.Radio.Link
import NextLevelRTOS.Sensor.Noise
import NextLevelRTOS.Arch.Acknowledge
import NextLevelRTOS.Arch.Gpio
import NextLevelRTOS.Arch.Syscfg
import NextLevelRTOS.Process.Hosted
import NextLevelRTOS.Process.Regions
import NextLevelRTOS.Process.Capacity
import NextLevelRTOS.Process.Dying
import NextLevelRTOS.Lib.Bits
import NextLevelRTOS.Lib.Driver
import NextLevelRTOS.Arch.Usart
import NextLevelRTOS.Radio.Direction
import NextLevelRTOS.Irq.Edges
import NextLevelRTOS.Core.Start
import NextLevelRTOS.Core.Board
